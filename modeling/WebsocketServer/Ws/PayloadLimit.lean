import WebsocketServer.Ws.RoundTrip

/- The payload limit. feed tests it on every wire frame but not on the message a run of
   fragments adds up to. -/
namespace StreamParser
open WebSocketCodec Upgrade

theorem readFrame_payload {limit off n : Nat} {rm : Bool} {b : Bytes} {f : WsFrame}
    (read : readFrame limit rm b off = .ok (f, n)) : f.payload.length ≤ limit := by
  unfold readFrame at read
  obtain ⟨_, _, read⟩ := bind_ok read
  obtain ⟨_, _, read⟩ := bind_ok read
  obtain ⟨_, _, read⟩ := bind_ok read
  obtain ⟨_, _, read⟩ := bind_ok read
  obtain ⟨len, _, read⟩ := bind_ok read
  obtain ⟨_, fits, read⟩ := bind_ok read
  obtain ⟨key, _, read⟩ := bind_ok read
  obtain ⟨_, _, read⟩ := bind_ok read
  have small : len.1 ≤ limit := by
    unfold reject at fits
    split at fits
    · contradiction
    · rename_i h
      simp only [decide_eq_true_eq] at h
      omega
  simp only [pure, Except.pure, Except.ok.injEq, Prod.mk.injEq] at read
  rw [← read.1]
  split
  · simp only [length_applyMask, List.length_take]; omega
  · simp only [List.length_take]; omega

/-- The frames an execution of the loop reads, each with the parser it is merged into. -/
def frameSteps (kMaxPayload : Nat) :
    Nat → WebSocketStreamParser → List (WebSocketStreamParser × WsFrame)
  | 0, _ => []
  | fuel + 1, p =>
      match readFrame kMaxPayload p.require_mask_ p.buffer_ p.parse_offset_ with
      | .error _ => []
      | .ok (f, idx) =>
          ({ p with parse_offset_ := idx }, f) ::
            match acceptFrame { p with parse_offset_ := idx } f with
            | (_, .error _) => []
            | (p', .ok _) => frameSteps kMaxPayload fuel p'

/-- The same for a call of feed, whose loop starts behind the head when there is one. -/
def feedSteps (ssl : OpenSsl) (env : Environment) (now : UInt64) (seen : NonceTable)
    (p : WebSocketStreamParser) (data : Bytes) : List (WebSocketStreamParser × WsFrame) :=
  let p := { p with buffer_ := p.buffer_ ++ data }
  match p.state_ with
  | .Open => frameSteps (maxPayloadLimit env) (p.buffer_.length + 1) p
  | .AwaitingHttpUpgrade =>
      match tryConsumeUpgrade ssl env now seen p with
      | some (.ok (_, p), _) => frameSteps (maxPayloadLimit env) (p.buffer_.length + 1) p
      | _ => []

/-- A continuation that keeps the message being put together within the limit. -/
def MergeFits (limit : Nat) (step : WebSocketStreamParser × WsFrame) : Prop :=
  step.2.opcode = 0x0 → step.1.in_fragment_ = true →
    step.1.fragment_payload_.length + step.2.payload.length ≤ limit

def DeliveredFit (limit : Nat) (out : List WsFrame) : Prop := ∀ f ∈ out, f.payload.length ≤ limit

theorem acceptFrame_fits {limit : Nat} {p p' : WebSocketStreamParser} {f : WsFrame}
    {fs : List WsFrame} (held : p.fragment_payload_.length ≤ limit)
    (size : f.payload.length ≤ limit)
    (fits : MergeFits limit (p, f)) (accepted : acceptFrame p f = (p', .ok fs)) :
    DeliveredFit limit fs ∧ p'.fragment_payload_.length ≤ limit := by
  have accepts := acceptFrame_accepts p f
  rw [accepted] at accepts
  cases accepts with
  | merges continuation inside =>
    have joined := fits continuation inside
    exact ⟨by simp [DeliveredFit], by simpa using joined⟩
  | completes continuation inside =>
    have joined := fits continuation inside
    exact ⟨by simpa [DeliveredFit] using joined, by simp⟩
  | begins => exact ⟨by simp [DeliveredFit], size⟩
  | delivers | controls => exact ⟨by simpa [DeliveredFit] using size, held⟩

/- A refused frame never touches the message being put together. -/
theorem acceptFrame_refused {p p' : WebSocketStreamParser} {f : WsFrame} {what : String}
    (refused : acceptFrame p f = (p', .error what)) : p' = p := by
  have accepts := acceptFrame_accepts p f
  rw [refused] at accepts
  cases accepts with
  | refuses => rfl

/-- An oversized message under construction is either delivered or still there. -/
def Oversized (limit : Nat) (out : List WsFrame) (p : WebSocketStreamParser) : Prop :=
  (∃ f ∈ out, limit < f.payload.length) ∨
    (p.in_fragment_ = true ∧ limit < p.fragment_payload_.length)

theorem acceptFrame_oversized {limit : Nat} {p p' : WebSocketStreamParser} {f : WsFrame}
    {fs : List WsFrame} (inside : p.in_fragment_ = true)
    (large : limit < p.fragment_payload_.length ∨
      (f.opcode = 0x0 ∧ limit < p.fragment_payload_.length + f.payload.length))
    (accepted : acceptFrame p f = (p', .ok fs)) : Oversized limit fs p' := by
  have total : f.opcode = 0x0 → limit < (p.fragment_payload_ ++ f.payload).length := by
    intro _
    rw [List.length_append]
    omega
  have accepts := acceptFrame_accepts p f
  rw [accepted] at accepts
  cases accepts with
  | merges continuation => exact .inr ⟨inside, total continuation⟩
  | completes continuation => exact .inl ⟨_, List.mem_singleton_self _, total continuation⟩
  | begins _ outside | delivers _ outside =>
    rw [inside] at outside
    contradiction
  | controls known =>
    rcases large with held | ⟨continuation, _⟩
    · exact .inr ⟨inside, held⟩
    · rw [continuation] at known
      exact absurd known (by decide)

theorem parseLoop_oversized {limit : Nat} (fuel : Nat) {p : WebSocketStreamParser}
    (inside : p.in_fragment_ = true) (large : limit < p.fragment_payload_.length) :
    Oversized limit (parseLoop limit fuel p).outFrames (parseLoop limit fuel p).parser := by
  induction fuel generalizing p with
  | zero => exact .inr ⟨inside, large⟩
  | succ fuel ih =>
    simp only [parseLoop]
    split
    · exact .inr ⟨inside, large⟩
    · exact .inr ⟨inside, large⟩
    · rename_i f idx _
      split
      · rename_i p' what refused
        rw [acceptFrame_refused refused]
        exact .inr ⟨inside, large⟩
      · rename_i p' fs accepted
        rcases acceptFrame_oversized (p := { p with parse_offset_ := idx }) inside
          (.inl large) accepted with ⟨g, mem, big⟩ | ⟨still, more⟩
        · exact .inl ⟨g, List.mem_append_left _ mem, big⟩
        · rcases ih still more with ⟨g, mem, big⟩ | rest
          · exact .inl ⟨g, List.mem_append_right _ mem, big⟩
          · exact .inr rest

section
variable {limit idx : Nat} (fuel : Nat) {p p' : WebSocketStreamParser} {f : WsFrame}

theorem loop_halts {halt : Halt}
    (read : readFrame limit p.require_mask_ p.buffer_ p.parse_offset_ = .error halt) :
    (parseLoop limit (fuel + 1) p).outFrames = [] ∧ (parseLoop limit (fuel + 1) p).parser = p ∧
      frameSteps limit (fuel + 1) p = [] := by
  cases halt <;> simp only [parseLoop, frameSteps, read, and_self]

theorem loop_refuses {what : String}
    (read : readFrame limit p.require_mask_ p.buffer_ p.parse_offset_ = .ok (f, idx))
    (refused : acceptFrame { p with parse_offset_ := idx } f = (p', .error what)) :
    (parseLoop limit (fuel + 1) p).outFrames = [] ∧ (parseLoop limit (fuel + 1) p).parser = p' ∧
      frameSteps limit (fuel + 1) p = [({ p with parse_offset_ := idx }, f)] := by
  simp only [parseLoop, frameSteps, read, refused, and_self]

theorem loop_accepts {fs : List WsFrame}
    (read : readFrame limit p.require_mask_ p.buffer_ p.parse_offset_ = .ok (f, idx))
    (accepted : acceptFrame { p with parse_offset_ := idx } f = (p', .ok fs)) :
    (parseLoop limit (fuel + 1) p).outFrames = fs ++ (parseLoop limit fuel p').outFrames ∧
      (parseLoop limit (fuel + 1) p).parser = (parseLoop limit fuel p').parser ∧
      frameSteps limit (fuel + 1) p =
        ({ p with parse_offset_ := idx }, f) :: frameSteps limit fuel p' := by
  simp only [parseLoop, frameSteps, read, accepted, and_self]

end

/- A refused continuation comes while no message is being put together. -/
theorem refused_fits {limit : Nat} {p p' : WebSocketStreamParser} {f : WsFrame} {what : String}
    (refused : acceptFrame p f = (p', .error what)) : MergeFits limit (p, f) := by
  have accepts := acceptFrame_accepts p f
  rw [refused] at accepts
  cases accepts with
  | refuses _ outside =>
    intro continuation inside
    exact absurd ((outside continuation).symm.trans inside) (by simp)

theorem parseLoop_fits {limit : Nat} (fuel : Nat) {p : WebSocketStreamParser}
    (held : p.fragment_payload_.length ≤ limit) :
    (DeliveredFit limit (parseLoop limit fuel p).outFrames ∧
      (parseLoop limit fuel p).parser.fragment_payload_.length ≤ limit) ↔
      ∀ step ∈ frameSteps limit fuel p, MergeFits limit step := by
  induction fuel generalizing p with
  | zero => simp [parseLoop, frameSteps, DeliveredFit, held]
  | succ fuel ih =>
    cases read : readFrame limit p.require_mask_ p.buffer_ p.parse_offset_ with
    | error halt =>
      obtain ⟨out, same, steps⟩ := loop_halts fuel read
      rw [out, same, steps]
      simp [DeliveredFit, held]
    | ok found =>
      obtain ⟨f, idx⟩ := found
      have size := readFrame_payload read
      cases verdict : acceptFrame { p with parse_offset_ := idx } f with
      | mk p' answer =>
        cases answer with
        | error what =>
          obtain ⟨out, same, steps⟩ := loop_refuses fuel read verdict
          rw [out, same, steps, acceptFrame_refused verdict]
          simp [DeliveredFit, held, refused_fits verdict]
        | ok fs =>
          obtain ⟨out, same, steps⟩ := loop_accepts fuel read verdict
          rw [out, same, steps, List.forall_mem_cons]
          by_cases fits : MergeFits limit ({ p with parse_offset_ := idx }, f)
          · obtain ⟨now, next⟩ := acceptFrame_fits (p := { p with parse_offset_ := idx }) held size
              fits verdict
            rw [← ih next]
            simp only [fits, true_and, DeliveredFit, List.mem_append]
            constructor
            · intro h
              exact ⟨fun g mem => h.1 g (.inr mem), h.2⟩
            · intro h
              exact ⟨fun g mem => mem.elim (now g) (h.1 g), h.2⟩
          · simp only [fits, false_and, iff_false, not_and]
            unfold MergeFits at fits
            simp only [Classical.not_imp, not_le] at fits
            obtain ⟨continuation, inside, large⟩ := fits
            intro delivered
            rcases acceptFrame_oversized (p := { p with parse_offset_ := idx }) inside
              (.inr ⟨continuation, large⟩) verdict with ⟨g, mem, big⟩ | ⟨still, more⟩
            · have small := delivered g (List.mem_append_left _ mem)
              omega
            · rcases parseLoop_oversized fuel still more with ⟨g, mem, big⟩ | ⟨_, rest⟩
              · have small := delivered g (List.mem_append_right _ mem)
                omega
              · omega

theorem feed_fits (ssl : OpenSsl) (env : Environment) (now : UInt64) (seen : NonceTable)
    {p : WebSocketStreamParser} (data : Bytes)
    (held : p.fragment_payload_.length ≤ maxPayloadLimit env) :
    (DeliveredFit (maxPayloadLimit env) (feed ssl env now seen p data).outFrames ∧
      (feed ssl env now seen p data).parser.fragment_payload_.length ≤ maxPayloadLimit env) ↔
      ∀ step ∈ feedSteps ssl env now seen p data, MergeFits (maxPayloadLimit env) step := by
  have loop (q : WebSocketStreamParser) (same : q.fragment_payload_ = p.fragment_payload_)
      (seen : NonceTable) (produced : Bool) (response : Bytes) :
      (DeliveredFit (maxPayloadLimit env) (parseFrames env seen q produced response).outFrames ∧
        (parseFrames env seen q produced response).parser.fragment_payload_.length ≤
          maxPayloadLimit env) ↔
        ∀ step ∈ frameSteps (maxPayloadLimit env) (q.buffer_.length + 1) q,
          MergeFits (maxPayloadLimit env) step := by
    have fits := parseLoop_fits (q.buffer_.length + 1) (same ▸ held)
    simp only [parseFrames]
    split <;> exact fits
  cases hs : p.state_ with
  | Open =>
    simp only [feed, feedSteps, hs]
    exact loop { p with state_ := .Open, buffer_ := p.buffer_ ++ data } rfl seen false []
  | AwaitingHttpUpgrade =>
    simp only [feed, feedSteps, hs]
    cases upgrade : tryConsumeUpgrade ssl env now seen
        { p with state_ := .AwaitingHttpUpgrade, buffer_ := p.buffer_ ++ data } with
    | none => simp [DeliveredFit, held]
    | some outcome =>
      obtain ⟨answer, seen'⟩ := outcome
      cases answer with
      | error what => simp [DeliveredFit, held]
      | ok next =>
        obtain ⟨response, q⟩ := next
        refine loop q ?_ seen' true response
        simp only [tryConsumeUpgrade] at upgrade
        split at upgrade
        · contradiction
        · split at upgrade
          · simp at upgrade
          · simp only [Option.some.injEq, Prod.mk.injEq, Except.ok.injEq] at upgrade
            rw [← upgrade.1.2]

/-- What every call of a sequence returned, and the merges they made; a call that throws does
    not end the sequence. -/
def feedRun (ssl : OpenSsl) (env : Environment) :
    NonceTable → WebSocketStreamParser → List (UInt64 × Bytes) → List FeedResult
  | _, _, [] => []
  | seen, p, (now, data) :: calls =>
      let r := feed ssl env now seen p data
      r :: feedRun ssl env r.seen r.parser calls

def mergeSteps (ssl : OpenSsl) (env : Environment) :
    NonceTable → WebSocketStreamParser → List (UInt64 × Bytes) →
      List (WebSocketStreamParser × WsFrame)
  | _, _, [] => []
  | seen, p, (now, data) :: calls =>
      let r := feed ssl env now seen p data
      feedSteps ssl env now seen p data ++ mergeSteps ssl env r.seen r.parser calls

/-- The limit covers whole messages: delivered ones and the one being put together. -/
def WithinLimit (limit : Nat) (results : List FeedResult) : Prop :=
  ∀ r ∈ results, DeliveredFit limit r.outFrames ∧ r.parser.fragment_payload_.length ≤ limit

theorem feedRun_fits (ssl : OpenSsl) (env : Environment) (calls : List (UInt64 × Bytes))
    (seen : NonceTable) {p : WebSocketStreamParser}
    (held : p.fragment_payload_.length ≤ maxPayloadLimit env) :
    WithinLimit (maxPayloadLimit env) (feedRun ssl env seen p calls) ↔
      ∀ step ∈ mergeSteps ssl env seen p calls, MergeFits (maxPayloadLimit env) step := by
  induction calls generalizing seen p with
  | nil => simp [WithinLimit, feedRun, mergeSteps]
  | cons call calls ih =>
    obtain ⟨now, data⟩ := call
    have first := feed_fits ssl env now seen data held
    simp only [WithinLimit, feedRun, mergeSteps, List.forall_mem_cons, List.forall_mem_append,
      ← first]
    constructor
    · rintro ⟨here, later⟩
      exact ⟨here, (ih _ here.2).mp later⟩
    · rintro ⟨here, later⟩
      exact ⟨here, (ih _ here.2).mpr later⟩

/-- A sequence of calls keeps whole messages within the limit exactly when no continuation takes
    the message it extends past it. -/
theorem payload_limit_exact (ssl : OpenSsl) (env : Environment) (requireMaskFromPeer opened : Bool)
    (seen : NonceTable) (calls : List (UInt64 × Bytes)) :
    WithinLimit (maxPayloadLimit env)
        (feedRun ssl env seen (freshParser requireMaskFromPeer opened) calls) ↔
      ∀ step ∈ mergeSteps ssl env seen (freshParser requireMaskFromPeer opened) calls,
        MergeFits (maxPayloadLimit env) step := by
  refine feedRun_fits ssl env calls seen ?_
  cases opened <;> exact Nat.zero_le _

def fullFragment : Bytes := List.replicate (64 * 1024) 0

theorem length_fullFragment : fullFragment.length = 64 * 1024 := List.length_replicate

/-- Two fragments, each within the default limit of 65536 bytes, of a message that is not. -/
def oversizedMessage : Message (maxPayloadLimit ⟨none, none⟩) where
  first := ⟨0x1, fullFragment, .inl rfl, Nat.le_of_eq length_fullFragment⟩
  more := [([], ⟨[0], by decide⟩)]

theorem fragments_pass_the_limit :
    ¬ ∀ (ssl : OpenSsl) (env : Environment) (requireMaskFromPeer opened : Bool) (seen : NonceTable)
        (calls : List (UInt64 × Bytes)),
      WithinLimit (maxPayloadLimit env)
        (feedRun ssl env seen (freshParser requireMaskFromPeer opened) calls) := by
  intro claimed
  have result := feed_conversation ⟨id, id⟩ ⟨none, none⟩ 0 [] [.message oversizedMessage]
  have bad := claimed ⟨id, id⟩ ⟨none, none⟩ false true []
    [(0, [Sent.message oversizedMessage].flatMap Sent.wire)]
  have delivered := (bad _ (List.mem_singleton_self _)).1
  rw [result] at delivered
  have small := delivered ⟨0x1, true, fullFragment ++ [0]⟩ (List.mem_singleton_self _)
  rw [List.length_append, length_fullFragment] at small
  exact absurd small (by decide)

end StreamParser
