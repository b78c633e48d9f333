import WebsocketServer.Library.StreamMachine
import WebsocketServer.Ws.FrameReading

/- The parser as an incremental decoder: with the nonce check off, feed runs one machine on
   the unread bytes, so the way the input is cut does not show. -/
namespace StreamParser
open WebSocketCodec Upgrade StreamMachine

/-- A parser without its buffer: the part of the state that decoding depends on. -/
def bare (p : WebSocketStreamParser) : WebSocketStreamParser :=
  { p with buffer_ := [], parse_offset_ := 0 }

def holding (s : WebSocketStreamParser) (unread : Bytes) : WebSocketStreamParser :=
  { s with buffer_ := unread, parse_offset_ := 0 }

def unread (p : WebSocketStreamParser) : Bytes := p.buffer_.drop p.parse_offset_

abbrev Event := Bytes ⊕ WsFrame
abbrev ParserVerdict := Verdict WebSocketStreamParser Event String

def lookFrame (limit : Nat) (s : WebSocketStreamParser) (b : Bytes) : ParserVerdict :=
  match readFrame limit s.require_mask_ b 0 with
  | .error .incomplete => .more
  | .error (.invalid what) => .stop what
  | .ok (f, n) =>
      match acceptFrame s f with
      | (_, .error what) => .stop what
      | (s', .ok frames) => .take n s' (frames.map .inr)

/-- The clock and the nonce table are fixed: they are not read while the check is off. -/
def lookHead (ssl : OpenSsl) (env : Environment) (s : WebSocketStreamParser) (b : Bytes) :
    ParserVerdict :=
  match headEnd b with
  | none => .more
  | some n =>
      match (checkHead ssl env 0 [] (b.take n)).1 with
      | .error what => .stop what
      | .ok response => .take n { s with state_ := .Open } [.inl response]

def look (ssl : OpenSsl) (env : Environment) (s : WebSocketStreamParser) (b : Bytes) :
    ParserVerdict :=
  match s.state_ with
  | .Open => lookFrame (maxPayloadLimit env) s b
  | .AwaitingHttpUpgrade => lookHead ssl env s b

theorem lookFrame_take {limit n : Nat} {s s' : WebSocketStreamParser} {b : Bytes} {o : List Event}
    (h : lookFrame limit s b = .take n s' o) :
    ∃ f frames, readFrame limit s.require_mask_ b 0 = .ok (f, n) ∧
      acceptFrame s f = (s', .ok frames) ∧ o = frames.map .inr := by
  unfold lookFrame at h
  split at h
  · contradiction
  · contradiction
  · rename_i f k read
    split at h
    · contradiction
    · rename_i s'' frames accepted
      injection h with hn hs ho
      subst hn; subst hs
      exact ⟨f, frames, read, accepted, ho.symm⟩

theorem lookHead_take {ssl : OpenSsl} {env : Environment} {n : Nat} {s s' : WebSocketStreamParser}
    {b : Bytes} {o : List Event} (h : lookHead ssl env s b = .take n s' o) :
    headEnd b = some n := by
  unfold lookHead at h
  split at h
  · contradiction
  · rename_i k found
    split at h
    · contradiction
    · injection h with hn
      rw [found, hn]

theorem lookFrame_grow {limit : Nat} {s : WebSocketStreamParser} {b : Bytes} (c : Bytes)
    (settled : lookFrame limit s b ≠ .more) : lookFrame limit s (b ++ c) = lookFrame limit s b := by
  have done : readFrame limit s.require_mask_ b 0 ≠ .error .incomplete := by
    intro stuck
    simp only [lookFrame, stuck, ne_eq, not_true_eq_false] at settled
  unfold lookFrame
  rw [readFrame_grow c (Nat.zero_le _) done]

theorem lookHead_grow {ssl : OpenSsl} {env : Environment} {s : WebSocketStreamParser} {b : Bytes}
    (c : Bytes) (settled : lookHead ssl env s b ≠ .more) :
    lookHead ssl env s (b ++ c) = lookHead ssl env s b := by
  cases found : headEnd b with
  | none => simp only [lookHead, found, ne_eq, not_true_eq_false] at settled
  | some n =>
    have bound := headEnd_bounds found
    simp only [lookHead, found, headEnd_grow c found, List.take_append_of_le_length bound.2]

theorem look_grow {ssl : OpenSsl} {env : Environment} {s : WebSocketStreamParser} {b : Bytes}
    (c : Bytes) (settled : look ssl env s b ≠ .more) :
    look ssl env s (b ++ c) = look ssl env s b := by
  unfold look at settled ⊢
  cases hs : s.state_ with
  | Open =>
    simp only [hs] at settled ⊢
    exact lookFrame_grow c settled
  | AwaitingHttpUpgrade =>
    simp only [hs] at settled ⊢
    exact lookHead_grow c settled

theorem look_take_bound {ssl : OpenSsl} {env : Environment} {s s' : WebSocketStreamParser}
    {b : Bytes} {n : Nat} {o : List Event} (h : look ssl env s b = .take n s' o) :
    0 < n ∧ n ≤ b.length := by
  unfold look at h
  split at h
  · obtain ⟨f, frames, read, _⟩ := lookFrame_take h
    have bound := readFrame_bounds (Nat.zero_le _) read
    omega
  · have bound := headEnd_bounds (lookHead_take h)
    omega

def parserMachine (ssl : OpenSsl) (env : Environment) :
    Machine WebSocketStreamParser UInt8 Event String where
  look := look ssl env
  take_bound := look_take_bound
  take_grow c h := (look_grow c (by simp [h])).trans h
  stop_grow c h := (look_grow c (by simp [h])).trans h

def responses (events : List Event) : List Bytes := events.filterMap Sum.getLeft?
def frames (events : List Event) : List WsFrame := events.filterMap Sum.getRight?

theorem frames_map_inr (fs : List WsFrame) (events : List Event) :
    frames (fs.map .inr ++ events) = fs ++ frames events := by
  simp [frames, List.filterMap_append, Function.comp_def]

theorem responses_map_inr (fs : List WsFrame) (events : List Event) :
    responses (fs.map .inr ++ events) = responses events := by
  simp [responses, List.filterMap_append, Function.comp_def]

theorem acceptFrame_bare (p : WebSocketStreamParser) (f : WsFrame) :
    acceptFrame (bare p) f = (bare (acceptFrame p f).1, (acceptFrame p f).2) := by
  unfold acceptFrame
  split
  · split
    · simp_all [bare]
    · split <;> simp_all [bare]
  · split
    · split
      · simp_all [bare]
      · split <;> simp_all [bare]
    · split
      · split <;> simp_all
      · simp_all

theorem acceptFrame_keeps (p : WebSocketStreamParser) (f : WsFrame) :
    (acceptFrame p f).1.buffer_ = p.buffer_ ∧
      (acceptFrame p f).1.parse_offset_ = p.parse_offset_ ∧
      (acceptFrame p f).1.state_ = p.state_ ∧
      (acceptFrame p f).1.require_mask_ = p.require_mask_ := by
  have accepts := acceptFrame_accepts p f
  generalize acceptFrame p f = r at accepts ⊢
  cases accepts <;> exact ⟨rfl, rfl, rfl, rfl⟩

/-- What a finished loop shares with the machine's run on the unread bytes. -/
structure LoopAgrees (r : LoopResult) (q : Outcome WebSocketStreamParser UInt8 Event String) :
    Prop where
  delivered : r.outFrames = frames q.outs
  silent : responses q.outs = []
  thrown : r.thrown = q.error
  state : r.thrown = none → bare r.parser = q.state ∧ unread r.parser = q.rest

theorem parseLoop_refines (ssl : OpenSsl) (env : Environment) (fuel : Nat)
    (p : WebSocketStreamParser) (opened : p.state_ = .Open)
    (inside : p.parse_offset_ ≤ p.buffer_.length) :
    LoopAgrees (parseLoop (maxPayloadLimit env) fuel p)
      (runFuel (parserMachine ssl env) fuel (bare p) (unread p)) := by
  induction fuel generalizing p with
  | zero => exact ⟨rfl, rfl, rfl, fun _ => ⟨rfl, rfl⟩⟩
  | succ fuel ih =>
    have here := readFrame_unread (maxPayloadLimit env) p.require_mask_ inside
    have view : (parserMachine ssl env).look (bare p) (unread p) =
        lookFrame (maxPayloadLimit env) (bare p) (unread p) := by
      simp only [parserMachine, look, bare, opened]
    simp only [parseLoop, runFuel, view, here]
    cases read : readFrame (maxPayloadLimit env) p.require_mask_ (unread p) 0 with
    | error halt =>
      have mask : (bare p).require_mask_ = p.require_mask_ := rfl
      rw [unread] at read
      cases halt with
      | incomplete =>
        simp only [lookFrame, mask, unread, read, shifted, Except.map]
        exact ⟨rfl, rfl, rfl, fun _ => ⟨rfl, rfl⟩⟩
      | invalid what =>
        simp only [lookFrame, mask, unread, read, shifted, Except.map]
        exact ⟨rfl, rfl, rfl, fun live => by simp at live⟩
    | ok found =>
      obtain ⟨f, n⟩ := found
      have mask : (bare p).require_mask_ = p.require_mask_ := rfl
      have bound := readFrame_bounds (Nat.zero_le _) read
      have room : p.parse_offset_ + n ≤ p.buffer_.length := by
        simp only [unread, List.length_drop] at bound
        omega
      have bareStep := acceptFrame_bare { p with parse_offset_ := p.parse_offset_ + n } f
      have keeps := acceptFrame_keeps { p with parse_offset_ := p.parse_offset_ + n } f
      have same : bare { p with parse_offset_ := p.parse_offset_ + n } = bare p := rfl
      rw [same] at bareStep
      simp only [lookFrame, mask, read, bareStep]
      simp only [unread] at read
      simp only [read, shifted, Except.map]
      cases accepted : acceptFrame { p with parse_offset_ := p.parse_offset_ + n } f with
      | mk p' verdict =>
        simp only [accepted] at keeps
        cases verdict with
        | error what => exact ⟨rfl, rfl, rfl, fun live => by simp at live⟩
        | ok fs =>
          have next := ih p' (keeps.2.2.1.trans opened) (by rw [keeps.1, keeps.2.1]; exact room)
          have tail : unread p' = (unread p).drop n := by
            simp only [unread, keeps.1, keeps.2.1, List.drop_drop]
          rw [tail] at next
          refine ⟨?_, ?_, next.thrown, next.state⟩
          · simp only [Outcome.prepend, frames_map_inr, next.delivered]
          · simp only [Outcome.prepend, responses_map_inr, next.silent]

def accepts (r : FeedResult) : List Bytes :=
  if r.outAcceptResponse = [] then [] else [r.outAcceptResponse]

structure FeedAgrees (r : FeedResult) (q : Outcome WebSocketStreamParser UInt8 Event String) :
    Prop where
  accepted : accepts r = responses q.outs
  delivered : r.outFrames = frames q.outs
  thrown : r.thrown = q.error
  state : r.thrown = none → r.parser = holding q.state q.rest

theorem parseFrames_refines (ssl : OpenSsl) (env : Environment) (seen : NonceTable)
    (p : WebSocketStreamParser) (opened : p.state_ = .Open) (start : p.parse_offset_ = 0)
    (produced : Bool) (response : Bytes) :
    FeedAgrees (parseFrames env seen p produced response)
      ((run (parserMachine ssl env) (bare p) p.buffer_).prepend
        (if response = [] then [] else [.inl response])) := by
  have loop := parseLoop_refines ssl env (p.buffer_.length + 1) p opened (by omega)
  have whole : unread p = p.buffer_ := by simp only [unread, start, List.drop_zero]
  rw [whole] at loop
  refine ⟨?_, ?_, loop.thrown, ?_⟩
  · simp only [accepts, parseFrames, Outcome.prepend, responses, List.filterMap_append]
    have silent := loop.silent
    simp only [responses] at silent
    rw [run, silent]
    split <;> simp_all
  · simp only [parseFrames, Outcome.prepend, frames, List.filterMap_append, loop.delivered, run]
    split <;> simp
  · intro live
    simp only [parseFrames] at live
    have done := loop.state live
    simp only [parseFrames, Outcome.prepend, live, Option.isNone_none, ↓reduceIte, run, ← done.1,
      ← done.2]
    rfl

theorem feed_open (ssl : OpenSsl) (env : Environment) (now : UInt64) (seen : NonceTable)
    {p : WebSocketStreamParser} (opened : p.state_ = .Open) (data : Bytes) :
    feed ssl env now seen p data =
      parseFrames env seen { p with buffer_ := p.buffer_ ++ data } false [] := by
  simp only [feed, opened]

theorem feed_awaiting (ssl : OpenSsl) (env : Environment) (now : UInt64) (seen : NonceTable)
    {p : WebSocketStreamParser} (waiting : p.state_ = .AwaitingHttpUpgrade) (data : Bytes) :
    feed ssl env now seen p data =
      let p := { p with buffer_ := p.buffer_ ++ data }
      match headEnd p.buffer_ with
      | none => ⟨p, seen, false, [], [], none⟩
      | some endPos =>
          match checkHead ssl env now seen (p.buffer_.take endPos) with
          | (.error what, seen) => ⟨p, seen, false, [], [], some what⟩
          | (.ok response, seen) =>
              parseFrames env seen
                { p with buffer_ := p.buffer_.drop endPos, parse_offset_ := 0, state_ := .Open }
                true response := by
  cases found : headEnd (p.buffer_ ++ data) with
  | none => simp only [feed, waiting, tryConsumeUpgrade, found]
  | some endPos =>
    cases verdict : checkHead ssl env now seen ((p.buffer_ ++ data).take endPos) with
    | mk answer seen' =>
      cases answer <;> simp only [feed, waiting, tryConsumeUpgrade, found, verdict]

theorem parseLoop_state (kMaxPayload fuel : Nat) (p : WebSocketStreamParser) :
    (parseLoop kMaxPayload fuel p).parser.state_ = p.state_ := by
  induction fuel generalizing p with
  | zero => rfl
  | succ fuel ih =>
    unfold parseLoop
    cases readFrame kMaxPayload p.require_mask_ p.buffer_ p.parse_offset_ with
    | error halt => cases halt <;> rfl
    | ok found =>
      obtain ⟨f, idx⟩ := found
      have keeps := (acceptFrame_keeps { p with parse_offset_ := idx } f).2.2.1
      dsimp only
      cases accepted : acceptFrame { p with parse_offset_ := idx } f with
      | mk p' verdict =>
        rw [accepted] at keeps
        cases verdict with
        | error what => exact keeps
        | ok frames => exact (ih p').trans keeps

theorem parseFrames_state (env : Environment) (seen : NonceTable) (p : WebSocketStreamParser)
    (produced : Bool) (response : Bytes) :
    (parseFrames env seen p produced response).parser.state_ = p.state_ := by
  have kept := parseLoop_state (maxPayloadLimit env) (p.buffer_.length + 1) p
  unfold parseFrames
  dsimp only
  split
  · exact kept
  · exact kept

/- A parser in Open mode stays there and answers no further request. -/
theorem feed_stays_open (ssl : OpenSsl) (env : Environment) (now : UInt64) (seen : NonceTable)
    {p : WebSocketStreamParser} (opened : p.state_ = .Open) (data : Bytes) :
    (feed ssl env now seen p data).parser.state_ = .Open ∧
      (feed ssl env now seen p data).outAcceptResponse = [] := by
  rw [feed_open ssl env now seen opened]
  exact ⟨(parseFrames_state env seen _ false []).trans opened, rfl⟩

theorem feed_delivers (ssl : OpenSsl) (env : Environment) (now : UInt64) (seen : NonceTable)
    (p : WebSocketStreamParser) (data : Bytes)
    (delivers : (feed ssl env now seen p data).outFrames ≠ [] ∨
      (feed ssl env now seen p data).outAcceptResponse ≠ []) :
    (feed ssl env now seen p data).parser.state_ = .Open := by
  cases mode : p.state_ with
  | Open => exact (feed_stays_open ssl env now seen mode data).1
  | AwaitingHttpUpgrade =>
    rw [feed_awaiting ssl env now seen mode] at delivers ⊢
    dsimp only at delivers ⊢
    cases found : headEnd (p.buffer_ ++ data) with
    | none => simp [found] at delivers
    | some endPos =>
      simp only [found] at delivers ⊢
      cases verdict : checkHead ssl env now seen ((p.buffer_ ++ data).take endPos) with
      | mk answer seen' =>
        cases answer with
        | error what => simp [verdict] at delivers
        | ok response => exact parseFrames_state env seen' _ true response

/- While it awaits the upgrade a parser delivers nothing; the call that opens it responds. -/
theorem feed_answers (ssl : OpenSsl) (env : Environment) (now : UInt64) (seen : NonceTable)
    {p : WebSocketStreamParser} (waiting : p.state_ = .AwaitingHttpUpgrade) (data : Bytes) :
    ((feed ssl env now seen p data).parser.state_ = .AwaitingHttpUpgrade ∧
        (feed ssl env now seen p data).outAcceptResponse = [] ∧
        (feed ssl env now seen p data).outFrames = []) ∨
      ((feed ssl env now seen p data).parser.state_ = .Open ∧
        ∃ accept, (feed ssl env now seen p data).outAcceptResponse = acceptResponse accept) := by
  rw [feed_awaiting ssl env now seen waiting]
  dsimp only
  cases found : headEnd (p.buffer_ ++ data) with
  | none => exact Or.inl ⟨waiting, rfl, rfl⟩
  | some endPos =>
    dsimp only
    cases verdict : checkHead ssl env now seen ((p.buffer_ ++ data).take endPos) with
    | mk answer seen' =>
      cases answer with
      | error what => exact Or.inl ⟨waiting, rfl, rfl⟩
      | ok response =>
        have ok := congrArg Prod.fst verdict
        obtain ⟨secKey, _, same⟩ := checkHead_response ok
        exact Or.inr ⟨parseFrames_state env seen' _ true response, _, same⟩

/- With the nonce check off, feed is the machine's run on what was held back and what arrived. -/
theorem feed_refines (ssl : OpenSsl) (env : Environment) (off : shouldEnforceNonce env = false)
    (now : UInt64) (seen : NonceTable) (p : WebSocketStreamParser) (start : p.parse_offset_ = 0)
    (data : Bytes) :
    FeedAgrees (feed ssl env now seen p data)
      (run (parserMachine ssl env) (bare p) (p.buffer_ ++ data)) := by
  cases hs : p.state_ with
  | Open =>
    rw [feed_open ssl env now seen hs]
    exact parseFrames_refines ssl env seen { p with buffer_ := p.buffer_ ++ data } hs start false []
  | AwaitingHttpUpgrade =>
    have view (b : Bytes) :
        (parserMachine ssl env).look (bare p) b = lookHead ssl env (bare p) b := by
      simp only [parserMachine, look, bare, hs]
    rw [feed_awaiting ssl env now seen hs]
    cases found : headEnd (p.buffer_ ++ data) with
    | none =>
      have waits : (parserMachine ssl env).look (bare p) (p.buffer_ ++ data) = .more := by
        simp only [view, lookHead, found]
      rw [run_more _ waits]
      simp only [found]
      refine ⟨rfl, rfl, rfl, fun _ => ?_⟩
      simp only [holding, bare, ← start]
    | some n =>
      have check := checkHead_without_nonce ssl env off now 0 seen []
        ((p.buffer_ ++ data).take n)
      cases verdict : checkHead ssl env now seen ((p.buffer_ ++ data).take n) with
      | mk answer seen' =>
        simp only [verdict] at check
        simp only [found, verdict]
        cases answer with
        | error what =>
          have stops : (parserMachine ssl env).look (bare p) (p.buffer_ ++ data) = .stop what := by
            simp only [view, lookHead, found, ← check]
          rw [run_stop _ stops]
          exact ⟨rfl, rfl, rfl, fun live => by simp at live⟩
        | ok response =>
          have takes : (parserMachine ssl env).look (bare p) (p.buffer_ ++ data) =
              .take n { bare p with state_ := .Open } [.inl response] := by
            simp only [view, lookHead, found, ← check]
          obtain ⟨key, _, form⟩ := checkHead_response check.symm
          have full : response ≠ [] := form ▸ acceptResponse_ne_nil _
          have rest := parseFrames_refines ssl env seen'
            { p with
              state_ := .Open, buffer_ := (p.buffer_ ++ data).drop n, parse_offset_ := 0 }
            rfl rfl true response
          rw [if_neg full] at rest
          rw [run_take _ takes]
          exact rest

/-- A caller's view of several calls, ended by the first exception. -/
structure Transcript where
  parser : WebSocketStreamParser
  seen : NonceTable
  accepts : List Bytes := []
  outFrames : List WsFrame := []
  thrown : Option String := none
  deriving DecidableEq, Repr

def feedCall (ssl : OpenSsl) (env : Environment) (t : Transcript) (call : UInt64 × Bytes) :
    Transcript :=
  if t.thrown.isSome then t
  else
    let r := feed ssl env call.1 t.seen t.parser call.2
    { parser := r.parser, seen := r.seen
      accepts := t.accepts ++ accepts r
      outFrames := t.outFrames ++ r.outFrames
      thrown := r.thrown }

/-- Successive calls of feed; each comes with the clock reading it would take. -/
def feedCalls (ssl : OpenSsl) (env : Environment) (t : Transcript) (calls : List (UInt64 × Bytes)) :
    Transcript :=
  calls.foldl (feedCall ssl env) t

structure TranscriptAgrees (t : Transcript) (q : Outcome WebSocketStreamParser UInt8 Event String) :
    Prop where
  accepted : t.accepts = responses q.outs
  delivered : t.outFrames = frames q.outs
  thrown : t.thrown = q.error
  state : t.thrown = none → t.parser = holding q.state q.rest ∧ bare q.state = q.state

/- Looking at a parser never leaves bytes in the machine's state. -/
theorem run_bare (ssl : OpenSsl) (env : Environment) (s : WebSocketStreamParser) (b : Bytes)
    (clean : bare s = s) : bare (run (parserMachine ssl env) s b).state =
      (run (parserMachine ssl env) s b).state := by
  induction len : b.length using Nat.strongRecOn generalizing s b with
  | ind k ih =>
    cases verdict : (parserMachine ssl env).look s b with
    | more => rw [run_more _ verdict]; exact clean
    | stop e => rw [run_stop _ verdict]; exact clean
    | take n s' o =>
      have bound := (parserMachine ssl env).take_bound verdict
      rw [run_take _ verdict]
      refine ih (b.drop n).length (by simp only [List.length_drop]; omega) s' _ ?_ rfl
      simp only [parserMachine, look] at verdict
      cases hs : s.state_ with
      | Open =>
        simp only [hs] at verdict
        obtain ⟨f, fs, _, step, _⟩ := lookFrame_take verdict
        have same := acceptFrame_bare s f
        rw [clean, step] at same
        exact (congrArg Prod.fst same).symm
      | AwaitingHttpUpgrade =>
        simp only [hs, lookHead] at verdict
        split at verdict
        · contradiction
        · split at verdict
          · contradiction
          · injection verdict with _ next _
            rw [← next, ← clean]
            rfl

theorem feedCall_refines (ssl : OpenSsl) (env : Environment) (off : shouldEnforceNonce env = false)
    {t : Transcript} {q : Outcome WebSocketStreamParser UInt8 Event String}
    (agrees : TranscriptAgrees t q) (call : UInt64 × Bytes) :
    TranscriptAgrees (feedCall ssl env t call)
      (StreamMachine.feed (parserMachine ssl env) q call.2) := by
  unfold feedCall
  cases dead : t.thrown with
  | some what =>
    rw [feed_dead _ (agrees.thrown ▸ dead)]
    simp only [Option.isSome_some, ↓reduceIte]
    exact agrees
  | none =>
    obtain ⟨parser, clean⟩ := agrees.state dead
    have live : q.error = none := agrees.thrown ▸ dead
    have step := feed_refines ssl env off call.1 t.seen t.parser (by rw [parser]; rfl) call.2
    have core : bare t.parser = q.state := by rw [parser]; exact clean
    have held : t.parser.buffer_ = q.rest := by rw [parser]; rfl
    rw [core, held] at step
    rw [feed_live _ live]
    simp only [Option.isSome_none, Bool.false_eq_true, ↓reduceIte]
    refine ⟨?_, ?_, step.thrown, fun fine => ⟨step.state fine, run_bare ssl env _ _ clean⟩⟩
    · simp only [agrees.accepted, step.accepted, Outcome.prepend, responses, List.filterMap_append]
    · simp only [agrees.delivered, step.delivered, Outcome.prepend, frames, List.filterMap_append]

theorem feedCalls_refines (ssl : OpenSsl) (env : Environment) (off : shouldEnforceNonce env = false)
    (calls : List (UInt64 × Bytes)) {t : Transcript}
    {q : Outcome WebSocketStreamParser UInt8 Event String} (agrees : TranscriptAgrees t q) :
    TranscriptAgrees (feedCalls ssl env t calls)
      (feedAll (parserMachine ssl env) q (calls.map Prod.snd)) := by
  induction calls generalizing t q with
  | nil => exact agrees
  | cons call calls ih => exact ih (feedCall_refines ssl env off agrees call)

/-- A parser before its first byte: constructed, and switched to Open by setOpenMode or not. -/
def freshParser (requireMaskFromPeer opened : Bool) : WebSocketStreamParser :=
  if opened then setOpenMode (construct requireMaskFromPeer) else construct requireMaskFromPeer

theorem fresh_waits (ssl : OpenSsl) (env : Environment) (requireMaskFromPeer opened : Bool) :
    (parserMachine ssl env).look (freshParser requireMaskFromPeer opened) [] = .more := by
  cases opened <;> rfl

theorem fresh_agrees (requireMaskFromPeer opened : Bool) (seen : NonceTable) :
    TranscriptAgrees { parser := freshParser requireMaskFromPeer opened, seen }
      (start (freshParser requireMaskFromPeer opened)) := by
  refine ⟨rfl, rfl, rfl, fun _ => ?_⟩
  cases opened <;> exact ⟨rfl, rfl⟩

/-- Segmentation invariance: however the same bytes are cut into calls, the accept response, the
    frames and the exception are the same, and so is the parser when nothing was thrown. -/
theorem segmentation_invariance (ssl : OpenSsl) (env : Environment)
    (off : shouldEnforceNonce env = false) (requireMaskFromPeer opened : Bool) (seen : NonceTable)
    (xs ys : List (UInt64 × Bytes)) (same : (xs.map Prod.snd).flatten = (ys.map Prod.snd).flatten) :
    let begin : Transcript := { parser := freshParser requireMaskFromPeer opened, seen }
    let t := feedCalls ssl env begin xs
    let u := feedCalls ssl env begin ys
    t.accepts = u.accepts ∧ t.outFrames = u.outFrames ∧ t.thrown = u.thrown ∧
      (t.thrown = none → t.parser = u.parser) := by
  intro begin t u
  have ht := feedCalls_refines ssl env off xs (fresh_agrees requireMaskFromPeer opened seen)
  have hu := feedCalls_refines ssl env off ys (fresh_agrees requireMaskFromPeer opened seen)
  have cut := cut_invariant (parserMachine ssl env)
    (r := start (freshParser requireMaskFromPeer opened))
    (fun _ => fresh_waits ssl env requireMaskFromPeer opened) same
  refine ⟨?_, ?_, ?_, ?_⟩
  · rw [ht.accepted, hu.accepted, cut.1]
  · rw [ht.delivered, hu.delivered, cut.1]
  · rw [ht.thrown, hu.thrown, cut.2.1]
  · intro live
    have equal := cut.2.2 (ht.thrown ▸ live)
    have live' : u.thrown = none := by rw [hu.thrown, ← equal, ← ht.thrown]; exact live
    rw [(ht.state live).1, (hu.state live').1, equal]

/- A masked "hi", cut inside its mask key and fed at two different times, or fed whole. -/
theorem cut_inside_mask_key :
    let begin : Transcript := { parser := freshParser true true, seen := [] }
    let t := feedCalls ⟨id, id⟩ ⟨none, none⟩ begin
      [(0, [0x81, 0x82, 1]), (5, []), (7, [2, 3, 4, 0x69, 0x6B])]
    let u := feedCalls ⟨id, id⟩ ⟨none, none⟩ begin [(0, [0x81, 0x82, 1, 2, 3, 4, 0x69, 0x6B])]
    t.accepts = u.accepts ∧ t.outFrames = u.outFrames ∧ t.thrown = u.thrown ∧
      (t.thrown = none → t.parser = u.parser) :=
  segmentation_invariance ⟨id, id⟩ ⟨none, none⟩ (by decide) true true [] _ _ (by decide)

end StreamParser
