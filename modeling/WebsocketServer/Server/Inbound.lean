import WebsocketServer.Server.Order
import WebsocketServer.Server.Streams
import WebsocketServer.Server.TlsCalls
import WebsocketServer.Ws.Decoding

/- The bytes of every connection on their way in: what SSL_read returned, what of it a parser
   took, and the messages submitted for it. -/
namespace WssServer
open StreamParser WebSocketCodec Upgrade

def reading (s : Server) : Input → Option (ConnRef × Bytes)
  | .io sys =>
      match s.io with
      | .driveTlsEarlyRead v =>
          match sys.early with
          | .success plain => if plain = [] then none else some (v.c, plain.take kTlsReadBytes)
          | .finish | .want | .error => none
      | .readLoop v =>
          match sys.read with
          | .ret plain => if plain = [] then none else some (v.c, plain.take kTlsReadBytes)
          | .want | .error => none
      | _ => none
  | .epoll _ _ | .listen _ _ _ | .timer _ _ | .wake _ | .worker _ _ => none

/-- The bytes a step hands to a feed that returns. -/
def parsing (config : Config) (s : Server) : Input → Option (ConnRef × Bytes)
  | .io sys =>
      match s.io with
      | .inbound v _ buf => if (s.fed config sys v buf).thrown = none then some (v.c, buf) else none
      | _ => none
  | .epoll _ _ | .listen _ _ _ | .timer _ _ | .wake _ | .worker _ _ => none

def ServerTaken.reading (t : ServerTaken) : Option (ConnRef × Bytes) :=
  WssServer.reading t.before t.input

def ServerTaken.parsing (config : Config) (t : ServerTaken) : Option (ConnRef × Bytes) :=
  WssServer.parsing config t.before t.input

def received (c : ConnRef) (past : List ServerTaken) : Bytes :=
  (Trace.of ServerTaken.reading c past).flatten

/-- What its parser took without a throw. -/
def parsed (config : Config) (c : ConnRef) (past : List ServerTaken) : Bytes :=
  (Trace.of (ServerTaken.parsing config) c past).flatten

def submitted (c : ConnRef) (past : List ServerTaken) : List Message :=
  (Trace.of submission c (observed past)).map Prod.snd

/-- What was read on a connection and is not parsed yet, and what feed delivered and was not taken
    up yet. -/
def IoState.waiting (c : ConnRef) : IoState → Bytes × List WsFrame
  | .inbound v _ buf => if v.c = c then (buf, []) else ([], [])
  | .sendUpgrade v _ _ frames | .nextFrame v _ frames | .flushIfDone v _ frames =>
      if v.c = c then ([], frames) else ([], [])
  | _ => ([], [])

def asMessage (frame : WsFrame) : Option Message :=
  if frame.opcode = 0x1 then some (.text frame.payload)
  else if frame.opcode = 0x2 then some (.binary frame.payload)
  else none

def beforeClose (frames : List WsFrame) : List WsFrame := frames.takeWhile fun f => f.opcode != 0x8

/-- What came of frames that were taken up or dropped behind a Close: in order, no message but
    theirs, and every message ahead of a Close. -/
structure TakenUp (frames : List WsFrame) (messages : List Message) : Prop where
  only : messages.Sublist (frames.filterMap asMessage)
  ahead : (beforeClose frames).filterMap asMessage <+: messages

section
variable {frames : List WsFrame} {messages : List Message} {frame : WsFrame}

theorem takenUp_nothing : TakenUp [] [] := ⟨List.Sublist.refl [], List.prefix_refl []⟩

theorem beforeClose_open (open' : ∀ f ∈ frames, f.opcode ≠ 0x8) : beforeClose frames = frames := by
  apply List.takeWhile_eq_self_iff.mpr
  intro f mem
  simpa using open' f mem

theorem beforeClose_append (frames later : List WsFrame) :
    (beforeClose frames = frames ∧ beforeClose (frames ++ later) = frames ++ beforeClose later) ∨
      beforeClose (frames ++ later) = beforeClose frames := by
  unfold beforeClose
  rw [List.takeWhile_append]
  by_cases whole : (frames.takeWhile fun f => f.opcode != 0x8).length = frames.length
  · left
    rw [if_pos whole]
    exact ⟨(List.takeWhile_prefix _).eq_of_length whole, rfl⟩
  · right
    rw [if_neg whole]

theorem TakenUp.all (taken : TakenUp frames messages) (open' : beforeClose frames = frames) :
    messages = frames.filterMap asMessage := by
  have ahead := taken.ahead
  rw [open'] at ahead
  exact taken.only.eq_of_length_le ahead.length_le

theorem beforeClose_silent {later : List WsFrame} (none : later.filterMap asMessage = []) :
    (beforeClose (frames ++ later)).filterMap asMessage =
      (beforeClose frames).filterMap asMessage := by
  rcases beforeClose_append frames later with ⟨whole, longer⟩ | same
  · have front : (beforeClose later).filterMap asMessage = [] := by
      apply List.eq_nil_of_prefix_nil
      rw [← none]
      exact (List.takeWhile_prefix _).filterMap _
    rw [longer, List.filterMap_append, front, List.append_nil, whole]
  · rw [same]

theorem TakenUp.other (taken : TakenUp frames messages) (none : asMessage frame = none) :
    TakenUp (frames ++ [frame]) messages := by
  have silent : [frame].filterMap asMessage = [] := by simp [none]
  constructor
  · rw [List.filterMap_append, silent, List.append_nil]
    exact taken.only
  · rw [beforeClose_silent silent]
    exact taken.ahead

theorem TakenUp.message (taken : TakenUp frames messages) {message : Message}
    (some : asMessage frame = some message) :
    TakenUp (frames ++ [frame]) (messages ++ [message]) := by
  have here : [frame].filterMap asMessage = [message] := by simp [some]
  constructor
  · rw [List.filterMap_append, here]
    exact taken.only.append (List.Sublist.refl _)
  · rcases beforeClose_append frames [frame] with ⟨whole, longer⟩ | same
    · rw [longer, List.filterMap_append, ← taken.all whole, ← here]
      exact List.prefix_append_right_inj _ |>.mpr ((List.takeWhile_prefix _).filterMap _)
    · rw [same]
      exact taken.ahead.trans (List.prefix_append _ _)

theorem TakenUp.dropped (taken : TakenUp frames messages) (close : frame.opcode = 0x8)
    (later : List WsFrame) : TakenUp (frames ++ frame :: later) messages := by
  constructor
  · rw [List.filterMap_append]
    exact taken.only.trans (List.sublist_append_left _ _)
  · rcases beforeClose_append frames (frame :: later) with ⟨whole, longer⟩ | same
    · have ends : beforeClose (frame :: later) = [] := by
        unfold beforeClose
        rw [List.takeWhile_cons_of_neg (by simp [close])]
      rw [longer, ends, List.append_nil, ← whole]
      exact taken.ahead
    · rw [same]
      exact taken.ahead

end

structure Gains (config : Config) (c : ConnRef) (t : ServerTaken) (read took : Bytes)
    (messages : List Message) : Prop where
  received : received c [t] = read
  parsed : parsed config c [t] = took
  submitted : submitted c [t] = messages

structure SameParser (c : ConnRef) (t : ServerTaken) : Prop where
  fd : (t.after.objects c).fd = (t.before.objects c).fd
  ws : (t.after.objects c).ws = (t.before.objects c).ws

inductive Inbound (config : Config) (c : ConnRef) (t : ServerTaken) : Prop where
  | idle (gains : Gains config c t [] [] [])
      (waits : t.after.io.waiting c = t.before.io.waiting c)
      (parser : (t.after.objects c).fd ≠ none →
        (t.before.objects c).fd ≠ none ∧ (t.after.objects c).ws = (t.before.objects c).ws)
  | accepts (new : t.before.allocated ≤ c) (gains : Gains config c t [] [] [])
      (before : t.before.io.waiting c = ([], [])) (after : t.after.io.waiting c = ([], []))
      (parser : (t.after.objects c).ws = construct true)
  | reads {buf : Bytes} (made : c < t.before.allocated) (gains : Gains config c t buf [] [])
      (before : t.before.io.waiting c = ([], [])) (after : t.after.io.waiting c = (buf, []))
      (same : SameParser c t)
  | throws {buf : Bytes} (gains : Gains config c t [] [] [])
      (before : t.before.io.waiting c = (buf, [])) (after : t.after.io.waiting c = ([], []))
      (closed : (t.after.objects c).fd = none)
  | parses {buf : Bytes} {r : FeedResult} {now : UInt64} (made : c < t.before.allocated)
      (gains : Gains config c t [] buf [])
      (before : t.before.io.waiting c = (buf, []))
      (after : t.after.io.waiting c = ([], r.outFrames)) (open' : (t.before.objects c).fd ≠ none)
      (fed : r = feed config.ssl config.env now t.before.seen (t.before.objects c).ws buf)
      (returns : r.thrown = none) (parser : (t.after.objects c).ws = r.parser)
  | handles {frame : WsFrame} {frames : List WsFrame}
      (gains : Gains config c t [] [] (asMessage frame).toList)
      (before : t.before.io.waiting c = ([], frame :: frames))
      (after : t.after.io.waiting c = ([], frames)) (same : SameParser c t)
  | drops {frame : WsFrame} {frames : List WsFrame} (gains : Gains config c t [] [] [])
      (before : t.before.io.waiting c = ([], frame :: frames)) (close : frame.opcode = 0x8)
      (after : t.after.io.waiting c = ([], [])) (same : SameParser c t)

section
variable {config : Config} {c : ConnRef}

theorem received_append (c : ConnRef) (past later : List ServerTaken) :
    received c (past ++ later) = received c past ++ received c later := by
  unfold received
  rw [Trace.of_append, List.flatten_append]

theorem parsed_append (config : Config) (c : ConnRef) (past later : List ServerTaken) :
    parsed config c (past ++ later) = parsed config c past ++ parsed config c later := by
  unfold parsed
  rw [Trace.of_append, List.flatten_append]

theorem submitted_append (c : ConnRef) (past later : List ServerTaken) :
    submitted c (past ++ later) = submitted c past ++ submitted c later := by
  unfold submitted observed
  rw [List.flatMap_append, Trace.of_append, List.map_append]

theorem gains_after {t : ServerTaken} {read took : Bytes} {messages : List Message}
    (gains : Gains config c t read took messages) (past : List ServerTaken) :
    received c (past ++ [t]) = received c past ++ read ∧
      parsed config c (past ++ [t]) = parsed config c past ++ took ∧
      submitted c (past ++ [t]) = submitted c past ++ messages := by
  rw [received_append, parsed_append, submitted_append, gains.received, gains.parsed,
    gains.submitted]
  exact ⟨rfl, rfl, rfl⟩

/-- The parser and the frames of a connection are what its bytes make of them. -/
structure InboundAt (config : Config) (past : List ServerTaken) (s : Server) (c : ConnRef) :
    Prop where
  fresh : s.allocated ≤ c → parsed config c past = [] ∧ received c past = []
  began : parsed config c past <+: received c past
  read : (s.objects c).fd ≠ none → received c past = parsed config c past ++ (s.io.waiting c).1
  parser : (s.objects c).fd ≠ none →
    Decoded config.ssl config.env (parsed config c past) (s.objects c).ws
      (decodedFrames config.ssl config.env (parsed config c past))
  messages : ∃ handled, handled ++ (s.io.waiting c).2 =
      decodedFrames config.ssl config.env (parsed config c past) ∧
    TakenUp handled (submitted c past)

section
variable {past : List ServerTaken} {t : ServerTaken} {buf : Bytes} {frame : WsFrame}
  {frames : List WsFrame}

/- What is to be shown of a step that parses nothing. -/
theorem InboundAt.unparsed {read : Bytes} {new : List Message}
    (inv : InboundAt config past t.before c) (gains : Gains config c t read [] new)
    (fresh : t.after.allocated ≤ c → parsed config c past = [] ∧ received c past ++ read = [])
    (open' : (t.after.objects c).fd ≠ none →
      received c past ++ read = parsed config c past ++ (t.after.io.waiting c).1 ∧
      Decoded config.ssl config.env (parsed config c past) (t.after.objects c).ws
        (decodedFrames config.ssl config.env (parsed config c past)))
    (messages : ∃ handled, handled ++ (t.after.io.waiting c).2 =
        decodedFrames config.ssl config.env (parsed config c past) ∧
      TakenUp handled (submitted c past ++ new)) :
    InboundAt config (past ++ [t]) t.after c := by
  obtain ⟨received, parsed, submitted⟩ := gains_after gains past
  rw [List.append_nil] at parsed
  constructor
  · rw [parsed, received]
    exact fresh
  · rw [parsed, received]
    exact inv.began.trans (List.prefix_append _ _)
  · rw [parsed, received]
    exact fun here => (open' here).1
  · rw [parsed]
    exact fun here => (open' here).2
  · rw [parsed, submitted]
    exact messages

theorem InboundAt.idle (inv : InboundAt config past t.before c)
    (grows : t.before.allocated ≤ t.after.allocated) (gains : Gains config c t [] [] [])
    (waits : t.after.io.waiting c = t.before.io.waiting c)
    (parser : (t.after.objects c).fd ≠ none →
      (t.before.objects c).fd ≠ none ∧ (t.after.objects c).ws = (t.before.objects c).ws) :
    InboundAt config (past ++ [t]) t.after c := by
  apply inv.unparsed gains
  · rw [List.append_nil]
    exact fun later => inv.fresh (grows.trans later)
  · rw [List.append_nil, waits]
    intro here
    obtain ⟨before, same⟩ := parser here
    exact ⟨inv.read before, same ▸ inv.parser before⟩
  · rw [List.append_nil, waits]
    exact inv.messages

theorem InboundAt.accepts (inv : InboundAt config past t.before c) (new : t.before.allocated ≤ c)
    (gains : Gains config c t [] [] []) (before : t.before.io.waiting c = ([], []))
    (after : t.after.io.waiting c = ([], [])) (parser : (t.after.objects c).ws = construct true) :
    InboundAt config (past ++ [t]) t.after c := by
  obtain ⟨nothing, unread⟩ := inv.fresh new
  have messages := inv.messages
  rw [before] at messages
  apply inv.unparsed gains
  · rw [List.append_nil]
    exact fun _ => ⟨nothing, unread⟩
  · rw [after, parser, nothing, unread]
    exact fun _ => ⟨rfl, decoded_nothing config.ssl config.env⟩
  · rw [List.append_nil, after]
    exact messages

theorem InboundAt.reads (inv : InboundAt config past t.before c)
    (grows : t.before.allocated ≤ t.after.allocated) (made : c < t.before.allocated)
    (gains : Gains config c t buf [] []) (before : t.before.io.waiting c = ([], []))
    (after : t.after.io.waiting c = (buf, [])) (same : SameParser c t) :
    InboundAt config (past ++ [t]) t.after c := by
  have messages := inv.messages
  have read := inv.read
  rw [before] at messages read
  apply inv.unparsed gains
  · exact fun later => absurd made (Nat.not_lt.mpr (grows.trans later))
  · rw [same.fd, same.ws, after]
    intro here
    refine ⟨?_, inv.parser here⟩
    rw [read here, List.append_nil]
  · rw [List.append_nil, after]
    exact messages

theorem InboundAt.throws (inv : InboundAt config past t.before c)
    (grows : t.before.allocated ≤ t.after.allocated) (gains : Gains config c t [] [] [])
    (before : t.before.io.waiting c = (buf, [])) (after : t.after.io.waiting c = ([], []))
    (closed : (t.after.objects c).fd = none) : InboundAt config (past ++ [t]) t.after c := by
  have messages := inv.messages
  rw [before] at messages
  apply inv.unparsed gains
  · rw [List.append_nil]
    exact fun later => inv.fresh (grows.trans later)
  · exact fun here => absurd closed here
  · rw [List.append_nil, after]
    exact messages

theorem InboundAt.parses {r : FeedResult} {now : UInt64} (inv : InboundAt config past t.before c)
    (grows : t.before.allocated ≤ t.after.allocated) (made : c < t.before.allocated)
    (gains : Gains config c t [] buf []) (before : t.before.io.waiting c = (buf, []))
    (after : t.after.io.waiting c = ([], r.outFrames)) (open' : (t.before.objects c).fd ≠ none)
    (fed : r = feed config.ssl config.env now t.before.seen (t.before.objects c).ws buf)
    (returns : r.thrown = none) (parser : (t.after.objects c).ws = r.parser) :
    InboundAt config (past ++ [t]) t.after c := by
  obtain ⟨received, parsed, submitted⟩ := gains_after gains past
  obtain ⟨handled, split, taken⟩ := inv.messages
  have whole := inv.read open'
  rw [before] at split whole
  rw [List.append_nil] at received submitted
  rw [fed] at returns
  have later := (inv.parser open').feed now t.before.seen buf returns
  have frames := later.frames
  rw [← fed] at later frames
  constructor
  · exact fun later => absurd made (Nat.not_lt.mpr (grows.trans later))
  · rw [parsed, received, whole]
  · rw [parsed, received, whole, after, List.append_nil]
    exact fun _ => rfl
  · rw [parsed, parser, ← frames]
    exact fun _ => later
  · rw [parsed, submitted, after, ← frames, ← split, List.append_nil]
    exact ⟨handled, rfl, taken⟩

theorem InboundAt.handles (inv : InboundAt config past t.before c)
    (grows : t.before.allocated ≤ t.after.allocated)
    (gains : Gains config c t [] [] (asMessage frame).toList)
    (before : t.before.io.waiting c = ([], frame :: frames))
    (after : t.after.io.waiting c = ([], frames)) (same : SameParser c t) :
    InboundAt config (past ++ [t]) t.after c := by
  obtain ⟨handled, split, taken⟩ := inv.messages
  have read := inv.read
  rw [before] at split read
  apply inv.unparsed gains
  · rw [List.append_nil]
    exact fun later => inv.fresh (grows.trans later)
  · rw [same.fd, same.ws, after, List.append_nil]
    exact fun here => ⟨read here, inv.parser here⟩
  · rw [after, ← split, List.append_cons]
    refine ⟨handled ++ [frame], rfl, ?_⟩
    cases here : asMessage frame with
    | none =>
      rw [Option.toList_none, List.append_nil]
      exact taken.other here
    | some message => exact taken.message here

theorem InboundAt.drops (inv : InboundAt config past t.before c)
    (grows : t.before.allocated ≤ t.after.allocated) (gains : Gains config c t [] [] [])
    (before : t.before.io.waiting c = ([], frame :: frames)) (close : frame.opcode = 0x8)
    (after : t.after.io.waiting c = ([], [])) (same : SameParser c t) :
    InboundAt config (past ++ [t]) t.after c := by
  obtain ⟨handled, split, taken⟩ := inv.messages
  have read := inv.read
  rw [before] at split read
  apply inv.unparsed gains
  · rw [List.append_nil]
    exact fun later => inv.fresh (grows.trans later)
  · rw [same.fd, same.ws, after, List.append_nil]
    exact fun here => ⟨read here, inv.parser here⟩
  · rw [after, ← split, List.append_nil]
    exact ⟨handled ++ frame :: frames, List.append_nil _, taken.dropped close frames⟩

theorem Inbound.keeps (inv : InboundAt config past t.before c)
    (grows : t.before.allocated ≤ t.after.allocated) (move : Inbound config c t) :
    InboundAt config (past ++ [t]) t.after c := by
  cases move with
  | idle gains waits parser => exact inv.idle grows gains waits parser
  | accepts new gains before after parser => exact inv.accepts new gains before after parser
  | reads made gains before after same => exact inv.reads grows made gains before after same
  | throws gains before after closed => exact inv.throws grows gains before after closed
  | parses made gains before after open' fed returns parser =>
    exact inv.parses grows made gains before after open' fed returns parser
  | handles gains before after same => exact inv.handles grows gains before after same
  | drops gains before close after same => exact inv.drops grows gains before close after same

end

theorem gains_nothing {s s' : Server} {i : Input} {out : List Observation}
    (reads : reading s i = none) (parses : parsing config s i = none)
    (silent : ∀ o ∈ out, submission o = none) (c : ConnRef) :
    Gains config c ⟨s, i, s', out⟩ [] [] [] := by
  have quiet := Trace.of_absent silent c
  refine ⟨?_, ?_, ?_⟩
  · simp [received, Trace.of, ServerTaken.reading, reads]
  · simp [parsed, Trace.of, ServerTaken.parsing, parses]
  · simp [submitted, observed, quiet]

theorem holds_visit (io : IoState) : io.holds = io.visit.map Visit.c := by
  cases io <;> rfl

theorem waiting_away {io : IoState} (away : ∀ v, io.visit = some v → v.c ≠ c) :
    io.waiting c = ([], []) := by
  cases io with
  | inbound v caller buf => exact if_neg (away v rfl)
  | sendUpgrade v caller acceptResp frames => exact if_neg (away v rfl)
  | nextFrame v caller frames => exact if_neg (away v rfl)
  | flushIfDone v caller frames => exact if_neg (away v rfl)
  | _ => rfl

end

section
variable {config : Config} {sys : Answers} {s : Server} {c : ConnRef}

abbrev ioTaken (config : Config) (sys : Answers) (s : Server) : ServerTaken :=
  ⟨s, .io sys, (ioStep config sys s).1, (ioStep config sys s).2⟩

theorem reading_visit {e : ConnRef × Bytes} (reads : reading s (.io sys) = some e) :
    ∃ v, s.io.visit = some v ∧ v.c = e.1 := by
  simp only [reading] at reads
  split at reads
  · rename_i v here
    refine ⟨v, by rw [here]; rfl, ?_⟩
    split at reads
    · split at reads
      · contradiction
      · rw [← Option.some.inj reads]
    all_goals contradiction
  · rename_i v here
    refine ⟨v, by rw [here]; rfl, ?_⟩
    split at reads
    · split at reads
      · contradiction
      · rw [← Option.some.inj reads]
    all_goals contradiction
  · contradiction

theorem parsing_some {e : ConnRef × Bytes} (parses : parsing config s (.io sys) = some e) :
    ∃ v caller buf, s.io = .inbound v caller buf ∧ e = (v.c, buf) := by
  simp only [parsing] at parses
  split at parses
  · rename_i v caller buf here
    split at parses
    · exact ⟨v, caller, buf, here, (Option.some.inj parses).symm⟩
    · contradiction
  · contradiction

theorem parsing_none (config : Config) (sys : Answers)
    (unfed : ∀ v caller buf, s.io ≠ .inbound v caller buf) : parsing config s (.io sys) = none := by
  cases found : parsing config s (.io sys) with
  | none => rfl
  | some e =>
    obtain ⟨v, caller, buf, here, _⟩ := parsing_some found
    exact absurd here (unfed v caller buf)

theorem away_inbound (away : ∀ v, s.io.visit = some v → v.c ≠ c) :
    Inbound config c (ioTaken config sys s) := by
  have move := ioStep_move config sys s
  have received : received c [ioTaken config sys s] = [] := by
    unfold received
    rw [Trace.of_other, List.flatten_nil]
    intro e reads same
    obtain ⟨v, visits, own⟩ := reading_visit reads
    exact away v visits (own.trans same)
  have parsed : parsed config c [ioTaken config sys s] = [] := by
    unfold parsed
    rw [Trace.of_other, List.flatten_nil]
    intro e parses same
    obtain ⟨v, caller, buf, here, rfl⟩ := parsing_some parses
    exact away v (by rw [here]; rfl) same
  have submitted : submitted c [ioTaken config sys s] = [] := by
    unfold submitted observed
    rw [List.flatMap_singleton]
    rcases (ioStep_only config sys s).tasks with ⟨_, plain⟩ | ⟨c', message, held, _, out⟩
    · have silent : ∀ o ∈ (ioStep config sys s).2, submission o = none :=
        fun o mem => (plain_silent (plain o mem)).1
      rw [Trace.of_absent silent c]
      rfl
    · have here : (ioTaken config sys s).output = [.submitted c' s.pool.submitted_ message] := out
      rw [here, Trace.of_other, List.map_nil]
      intro e same own
      obtain rfl := Option.some.inj same
      rw [holds_visit] at held
      obtain ⟨v, visits, here⟩ := Option.map_eq_some_iff.mp held
      exact away v visits (here.trans own)
  refine .idle ⟨received, parsed, submitted⟩ ?_ ?_
  · have ends : ∀ v, (ioStep config sys s).1.io.visit = some v → v.c ≠ c :=
      fun v visits => away v (ioMove_continues move v visits).1
    exact (waiting_away ends).trans (waiting_away away).symm
  · intro open'
    have ws : ((ioStep config sys s).1.objects c).ws = (s.objects c).ws := by
      rcases ioMove_frameParser move c with same | ⟨v, caller, buf, here, own, _⟩
      · exact same
      · exact absurd own (away v (by rw [here]; rfl))
    refine ⟨?_, ws⟩
    rcases (ioMove_sockets move).ages.2.2 with same | closed
    · exact same ▸ open'
    · exact absurd closed open'

theorem quiet_inbound {r : Stepped} (move : IoMove config sys s r)
    (reads : reading s (.io sys) = none)
    (fed : ∀ v caller buf, s.io ≠ .inbound v caller buf)
    (taken : ∀ v caller frame frames, s.io ≠ .nextFrame v caller (frame :: frames))
    (unread : ∀ v caller buf, r.1.io ≠ .inbound v caller buf) :
    Inbound config c ⟨s, .io sys, r.1, r.2⟩ := by
  have parses := parsing_none config sys fed
  have silent : ∀ o ∈ r.2, submission o = none := by
    cases move with
    | flushes | drains => simp [Server.sslWrites, submission]
    | pushes => simp [sendItem, submission]
    | peerCloses here => exact absurd here (taken _ _ _ _)
    | submits here => exact absurd here (taken _ _ _ _)
    | _ => simp
  have waits : r.1.io.waiting c = s.io.waiting c := by
    cases move with
    | stays => rfl
    | goes next =>
      generalize s.io = at' at *
      cases next with
      | gotEarly | got => exact absurd rfl (unread _ _ _)
      | readsOnEarly | readsOn | stopsReading => simp [IoState.waiting]
      | _ => rfl
    | closes site =>
      generalize s.io = at' at *
      cases site <;> rfl
    | flushes site unlocked =>
      generalize s.io = at' at *
      cases site <;> rfl
    | drains here out closing =>
      rw [here]
      rfl
    | earlyDone site =>
      rcases site with here | here
      · rw [here]
        rfl
      · rw [here]
        simp [IoState.waiting]
    | accepted here =>
      rw [here]
      rfl
    | throws here | delivers here | upgrades here => exact absurd here (fed _ _ _)
    | ponged here | peerCloses here | submits here => exact absurd here (taken _ _ _ _)
    | pushes site unlocked =>
      generalize s.io = at' at *
      cases site with
      | pong | unsupported => exact absurd rfl (taken _ _ _ _)
      | closeReply => simp [IoState.waiting, sendItem]
      | _ => rfl
    | cleans here =>
      rw [here]
      rfl
  refine .idle (gains_nothing reads parses silent c) waits ?_
  intro open'
  have ws : (r.1.objects c).ws = (s.objects c).ws := by
    rcases ioMove_frameParser move c with same | ⟨v, caller, buf, here, _, _⟩
    · exact same
    · exact absurd here (fed v caller buf)
  refine ⟨?_, ws⟩
  rcases (ioMove_sockets move).ages.2.2 with same | closed
  · exact same ▸ open'
  · exact absurd closed open'

theorem reads_inbound {v : Visit} {caller : Caller} {buf : Bytes} (own : v.c = c)
    (made : c < s.allocated) (site : s.io.waiting c = ([], []))
    (reads : reading s (.io sys) = some (v.c, buf)) (parses : parsing config s (.io sys) = none) :
    Inbound config c ⟨s, .io sys, s.goto (.inbound v caller buf), []⟩ := by
  refine .reads made ⟨?_, ?_, rfl⟩ site (if_pos own) ⟨rfl, rfl⟩
  · simp [received, Trace.of, ServerTaken.reading, reads, own]
  · simp [parsed, Trace.of, ServerTaken.parsing, parses]

def ReadsOrNot (s : Server) (sys : Answers) (r : Stepped) : Prop :=
  (∃ v caller buf, s.io.visit = some v ∧ reading s (.io sys) = some (v.c, buf) ∧
    (∀ c, s.io.waiting c = ([], [])) ∧ r = (s.goto (.inbound v caller buf), [])) ∨
  (reading s (.io sys) = none ∧
    ∀ v caller buf, r.1.io = .inbound v caller buf → s.io = .inbound v caller buf)

theorem readsOrNot_blocked {r : Stepped} (c : ConnRef) (none : reading s (.io sys) = none)
    (leaves : ∀ v caller buf, r.1.io ≠ .inbound v caller buf) :
    ReadsOrNot s sys (s.whenUnlocked c r) := by
  apply Server.whenUnlocked_either (P := ReadsOrNot s sys)
  · exact .inr ⟨none, fun _ _ _ same => same⟩
  · exact .inr ⟨none, fun v caller buf same => absurd same (leaves v caller buf)⟩

theorem driveTlsEarlyRead_reads {v : Visit} (here : s.io = .driveTlsEarlyRead v) :
    ReadsOrNot s sys (driveTlsEarlyRead sys s v) := by
  unfold driveTlsEarlyRead
  cases early : sys.early with
  | success plain =>
    by_cases none : plain = []
    · simp only [if_pos none]
      exact .inr ⟨by simp only [reading, here, early, if_pos none], fun _ _ _ same => same⟩
    · simp only [if_neg none]
      refine .inl ⟨v, _, _, by rw [here]; rfl, ?_, fun _ => by rw [here]; rfl, rfl⟩
      simp only [reading, here, early, if_neg none]
  | finish | want =>
    exact .inr ⟨by simp only [reading, here, early], fun _ _ _ same => nomatch same⟩
  | error => exact readsOrNot_blocked _ (by simp only [reading, here, early]) (by simp)

theorem readLoop_reads {v : Visit} (here : s.io = .readLoop v) :
    ReadsOrNot s sys (readLoop sys s v) := by
  unfold readLoop
  cases read : sys.read with
  | ret plain =>
    by_cases none : plain = []
    · simp only [if_pos none]
      exact readsOrNot_blocked _ (by simp only [reading, here, read, if_pos none]) (by simp)
    · simp only [if_neg none]
      refine .inl ⟨v, _, _, by rw [here]; rfl, ?_, fun _ => by rw [here]; rfl, rfl⟩
      simp only [reading, here, read, if_neg none]
  | want =>
    exact .inr ⟨by simp only [reading, here, read], fun _ _ _ same => nomatch same⟩
  | error => exact readsOrNot_blocked _ (by simp only [reading, here, read]) (by simp)

/- Nothing but a read leads to the parser. -/
theorem ioMove_comes {r : Stepped} (move : IoMove config sys s r)
    (early : ∀ v, s.io ≠ .driveTlsEarlyRead v) (loop : ∀ v, s.io ≠ .readLoop v) (v : Visit)
    (caller : Caller) (buf : Bytes) (comes : r.1.io = .inbound v caller buf) :
    s.io = .inbound v caller buf := by
  cases move with
  | stays => exact comes
  | goes next =>
    generalize s.io = at' at *
    cases next with
    | gotEarly => exact absurd rfl (early _)
    | got => exact absurd rfl (loop _)
    | _ => contradiction
  | closes site =>
    generalize s.io = at' at *
    cases site <;> contradiction
  | flushes site unlocked =>
    generalize s.io = at' at *
    cases site <;> contradiction
  | throws here left thrown =>
    cases left <;> contradiction
  | pushes site unlocked =>
    generalize s.io = at' at *
    cases site <;> contradiction
  | _ => contradiction

theorem ioStep_reads (config : Config) (sys : Answers) (s : Server) :
    ReadsOrNot s sys (ioStep config sys s) := by
  have move := ioStep_move config sys s
  cases here : s.io with
  | driveTlsEarlyRead v =>
    unfold ioStep
    rw [here]
    exact driveTlsEarlyRead_reads here
  | readLoop v =>
    unfold ioStep
    rw [here]
    exact readLoop_reads here
  | _ =>
    exact .inr ⟨by simp only [reading, here], ioMove_comes move (by simp [here]) (by simp [here])⟩

theorem blocked_inbound (reads : reading s (.io sys) = none)
    (parses : parsing config s (.io sys) = none) : Inbound config c ⟨s, .io sys, s, []⟩ :=
  .idle (gains_nothing reads parses (by simp) c) rfl fun open' => ⟨open', rfl⟩

theorem closed_gone {fd : Nat} (found : s.conns.lookup fd = some c) :
    ((s.closeConnection fd).objects c).fd = none := by
  unfold Server.closeConnection
  rw [found]
  exact congrArg Connection.fd (s.modify_self c Connection.close)

theorem fed_inbound {v : Visit} {caller : Caller} {buf : Bytes}
    (here : s.io = .inbound v caller buf) (settled : Settled s) (sockets : SocketInv s) :
    Inbound config v.c (ioTaken config sys s) := by
  have run : ioStep config sys s = processResult sys s v caller (s.fed config sys v buf) := by
    unfold ioStep
    rw [here]
    rfl
  have made : v.c < s.allocated := settled.refs.io v.c (by rw [here]; rfl)
  have site : s.io.waiting v.c = (buf, []) := by
    rw [here]
    exact if_pos rfl
  have open' := sockets.reads v (by rw [here]; rfl) (by rw [here]; rfl)
  have reads : reading s (.io sys) = none := by simp only [reading, here]
  unfold ioTaken
  rw [run]
  generalize fed : s.fed config sys v buf = r
  unfold processResult
  cases thrown : r.thrown with
  | some what =>
    have parses : parsing config s (.io sys) = none := by
      simp only [parsing, here, fed, thrown, reduceCtorEq, ↓reduceIte]
    apply Server.whenUnlocked_either (P := fun r => Inbound config v.c ⟨s, .io sys, r.1, r.2⟩)
    · exact blocked_inbound reads parses
    · refine .throws (gains_nothing reads parses (by simp) v.c) site ?_ ?_
      · cases caller <;> rfl
      · obtain ⟨fd, socket⟩ := Option.ne_none_iff_exists'.mp open'
        have found := sockets.table v.c made fd socket
        have own : fd = v.fd :=
          (settled.visits v (by rw [here]; rfl) fd v.c found).mpr rfl
        exact closed_gone (s := takeParser s v.c r) (own ▸ found)
  | none =>
    have gains {r' : Stepped} (out : r'.2 = []) :
        Gains config v.c ⟨s, .io sys, r'.1, r'.2⟩ [] buf [] := by
      refine ⟨?_, ?_, ?_⟩
      · simp [received, Trace.of, ServerTaken.reading, reads]
      · simp [parsed, Trace.of, ServerTaken.parsing, parsing, here, fed, thrown]
      · simp [submitted, observed, Trace.of, out]
    cases response : r.outAcceptResponse with
    | nil =>
      refine .parses made (gains rfl) site (if_pos rfl) open' fed.symm thrown ?_
      simp [takeParser]
    | cons b acceptResp =>
      refine .parses made (gains rfl) site (if_pos rfl) open' fed.symm thrown ?_
      simp [takeParser]

theorem frame_inbound {v : Visit} {caller : Caller} {frame : WsFrame} {frames : List WsFrame}
    (here : s.io = .nextFrame v caller (frame :: frames)) :
    Inbound config v.c (ioTaken config sys s) := by
  have run : ioStep config sys s = processFrame sys s v caller frame frames := by
    unfold ioStep
    rw [here]
  have site : s.io.waiting v.c = ([], frame :: frames) := by
    rw [here]
    exact if_pos rfl
  have reads : reading s (.io sys) = none := by simp only [reading, here]
  have parses : parsing config s (.io sys) = none := by simp only [parsing, here]
  have gains {r : Stepped} (silent : ∀ o ∈ r.2, submission o = none) :
      Gains config v.c ⟨s, .io sys, r.1, r.2⟩ [] [] [] :=
    gains_nothing reads parses silent v.c
  unfold ioTaken
  rw [run]
  unfold processFrame
  dsimp only
  by_cases ping : frame.opcode = 0x9
  · rw [if_pos ping]
    apply Server.whenUnlocked_either (P := fun r => Inbound config v.c ⟨s, .io sys, r.1, r.2⟩)
    · exact blocked_inbound reads parses
    · refine .handles ?_ site (if_pos rfl) ⟨?_, ?_⟩
      · rw [show asMessage frame = none by simp [asMessage, ping]]
        exact gains (by simp [sendItem, submission])
      · simp [sendItem, Connection.enqueue]
      · simp [sendItem, Connection.enqueue]
  rw [if_neg ping]
  by_cases pong : frame.opcode = 0xA
  · rw [if_pos pong]
    refine .handles ?_ site (if_pos rfl) ⟨by simp, by simp⟩
    rw [show asMessage frame = none by simp [asMessage, pong]]
    exact gains (by simp)
  rw [if_neg pong]
  by_cases close : frame.opcode = 0x8
  · rw [if_pos close]
    exact .drops (gains (by simp [submission])) site close rfl ⟨by simp, by simp⟩
  rw [if_neg close]
  have submits {message : Message} (same : asMessage frame = some message) :
      Inbound config v.c ⟨s, .io sys,
        (submitTask (s.modify v.c fun c => { c with last_ping := sys.now }) v.c message
          (.nextFrame v caller frames)).1,
        (submitTask (s.modify v.c fun c => { c with last_ping := sys.now }) v.c message
          (.nextFrame v caller frames)).2⟩ := by
    refine .handles ⟨?_, ?_, ?_⟩ site (if_pos rfl) ⟨by simp [submitTask], by simp [submitTask]⟩
    · simp [received, Trace.of, ServerTaken.reading, reads]
    · simp [parsed, Trace.of, ServerTaken.parsing, parses]
    · simp [submitted, observed, Trace.of, submitTask, submission, same]
  by_cases text : frame.opcode = 0x1
  · rw [if_pos text]
    exact submits (by simp [asMessage, text])
  rw [if_neg text]
  by_cases binary : frame.opcode = 0x2
  · rw [if_pos binary]
    exact submits (by simp [asMessage, binary])
  · rw [if_neg binary]
    apply Server.whenUnlocked_either (P := fun r => Inbound config v.c ⟨s, .io sys, r.1, r.2⟩)
    · exact blocked_inbound reads parses
    · refine .handles ?_ site (if_pos rfl) ⟨by simp [sendItem, Connection.enqueue],
        by simp [sendItem, Connection.enqueue]⟩
      rw [show asMessage frame = none by simp [asMessage, text, binary]]
      exact gains (by simp [sendItem, submission])

theorem io_inbound (settled : Settled s) (sockets : SocketInv s) (c : ConnRef) :
    Inbound config c (ioTaken config sys s) := by
  by_cases away : ∀ v, s.io.visit = some v → v.c ≠ c
  · exact away_inbound away
  simp only [not_forall, not_not] at away
  obtain ⟨v, visits, rfl⟩ := away
  by_cases feeding : ∃ v caller buf, s.io = .inbound v caller buf
  · obtain ⟨v', caller, buf, here⟩ := feeding
    rw [here] at visits
    obtain rfl := Option.some.inj visits
    exact fed_inbound here settled sockets
  by_cases taking : ∃ v caller frame frames, s.io = .nextFrame v caller (frame :: frames)
  · obtain ⟨v', caller, frame, frames, here⟩ := taking
    rw [here] at visits
    obtain rfl := Option.some.inj visits
    exact frame_inbound here
  simp only [not_exists] at feeding taking
  rcases ioStep_reads config sys s with
    ⟨v', caller, buf, visits', reads, site, run⟩ | ⟨none, comes⟩
  · obtain rfl := Option.some.inj (visits.symm.trans visits')
    have made : v.c < s.allocated := by
      apply settled.refs.io
      rw [holds_visit, visits]
      rfl
    unfold ioTaken
    rw [run]
    exact reads_inbound rfl made (site v.c) reads (parsing_none config sys feeding)
  · exact quiet_inbound (ioStep_move config sys s) none feeding taking
      fun v caller buf same => feeding v caller buf (comes v caller buf same)

theorem arrival_inbound {i : Input} {r : Stepped} (waits : s.io = .epollWait)
    (other : ∀ sys, i ≠ .io sys) (busy : ∀ w sys, i ≠ .worker w sys) (move : Move config s i r)
    (c : ConnRef) : Inbound config c ⟨s, i, r.1, r.2⟩ := by
  have calm : reading s i = none ∧ parsing config s i = none := by
    cases i with
    | io sys => exact absurd rfl (other sys)
    | _ => exact ⟨rfl, rfl⟩
  have before : s.io.waiting c = ([], []) := by
    rw [waits]
    rfl
  have gains {s' : Server} : Gains config c ⟨s, i, s', []⟩ [] [] [] :=
    gains_nothing calm.1 calm.2 (by simp) c
  have closed (s' : Server) (fd : Nat) (open' : ((s'.closeConnection fd).objects c).fd ≠ none) :
      (s'.objects c).fd ≠ none := by
    rcases (hangup_sockets s' fd).ages.2.2 with same | closed
    · exact same ▸ open'
    · exact absurd closed open'
  cases move with
  | io sys => exact absurd rfl (other sys)
  | worker real sys => exact absurd rfl (busy _ sys)
  | stays => exact .idle gains rfl fun open' => ⟨open', rfl⟩
  | hangup fd e => exact .idle gains before.symm fun open' => ⟨closed s fd open', close_ws s fd c⟩
  | shakes | reads | timer | wake => exact .idle gains before.symm fun open' => ⟨open', rfl⟩
  | @accepts cfd now waits fresh =>
    by_cases new : c = s.allocated
    · refine .accepts (Nat.le_of_eq new.symm) gains before before ?_
      simp [addConnection, new, Connection.construct, construct]
    · refine .idle gains rfl ?_
      dsimp only
      rw [addConnection_other new]
      exact fun open' => ⟨open', rfl⟩
  | @refuses cfd now waits fresh =>
    refine .idle gains before.symm ?_
    intro open'
    by_cases new : c = s.allocated
    · have found : (addConnection config s cfd now).conns.lookup cfd = some c := by
        rw [new]
        exact AList.lookup_insert _
      exact absurd (closed_gone found) open'
    · have live := closed (addConnection config s cfd now) cfd open'
      have same := close_ws (addConnection config s cfd now) cfd c
      rw [addConnection_other new] at live same
      exact ⟨live, same⟩

theorem workerMove_submits {w : Nat} {r : Stepped} (move : WorkerMove config s w r) :
    ∀ o ∈ r.2, submission o = none := by
  cases move with
  | handles | pushes => simp [pushReplies, submission]
  | _ => simp

theorem step_inbound (settled : Settled s) (sockets : SocketInv s) (i : Input) (c : ConnRef) :
    Inbound config c ⟨s, i, (step config s i).1, (step config s i).2⟩ := by
  have blocked (reads : reading s i = none) (parses : parsing config s i = none) :
      Inbound config c ⟨s, i, s, []⟩ :=
    .idle (gains_nothing reads parses (by simp) c) rfl fun open' => ⟨open', rfl⟩
  have waits := arrival_waits config s (i := i)
  cases i with
  | io sys => exact io_inbound settled sockets c
  | worker w sys =>
    unfold step
    by_cases real : w < config.workerCount
    · simp only [if_pos real]
      have move := workerStep_move config sys s w
      have same := workerMove_same move
      refine .idle (gains_nothing rfl rfl (workerMove_submits move) c) ?_ ?_
      · dsimp only
        rw [same.2]
      · dsimp only
        rw [workerMove_ws move c, (tls_fields (same.1.tls c)).2.1]
        exact fun open' => ⟨open', rfl⟩
    · simp only [if_neg real]
      exact blocked rfl rfl
  | _ =>
    rcases waits (by simp) (by simp) with waits | still
    · exact arrival_inbound waits (by simp) (by simp) (step_move config s _) c
    · rw [still]
      exact blocked rfl rfl

end

structure InboundInv (config : Config) (past : List ServerTaken) (s : Server) : Prop where
  settled : Settled s
  sockets : SocketInv s
  connections : ∀ c, InboundAt config past s c

theorem start_inbound (config : Config) (disk : FileSystem Bytes) :
    InboundInv config [] (start disk) := by
  refine ⟨(start_wire disk).settled, start_sockets disk, ?_⟩
  intro c
  refine ⟨fun _ => ⟨rfl, rfl⟩, List.prefix_refl _, ?_, ?_, [], rfl, takenUp_nothing⟩
  · exact fun _ => rfl
  · exact fun closed => absurd rfl closed

theorem step_inboundInv {config : Config} (past : List ServerTaken) (s : Server) (i : Input)
    (inv : InboundInv config past s) :
    InboundInv config (past ++ [⟨s, i, (step config s i).1, (step config s i).2⟩])
      (step config s i).1 := by
  refine ⟨step_settled inv.settled i, step_socketInv inv.settled.tls inv.sockets i, ?_⟩
  intro c
  exact (step_inbound inv.settled inv.sockets i c).keeps (inv.connections c)
    (step_allocated config s i)

theorem run_inbound (config : Config) (disk : FileSystem Bytes) (inputs : List Input) :
    InboundInv config (Run.steps (step config) (start disk) inputs)
      (Run.final (step config) (start disk) inputs) :=
  Run.invariant_history (InboundInv config) step_inboundInv inputs (start_inbound config disk)

end WssServer
