import WebsocketServer.Client.LostFrames
import WebsocketServer.Server.Streams
import WebsocketServer.Ws.Decoding
import WebsocketServer.Ws.RoundTrip

/- The way from the server's queues to the client's loops: what the client's parser makes of the
   bytes that came over the connection. -/
namespace StreamParser
open WebSocketCodec Upgrade StreamMachine

def Carries (item : Bytes) (f : WsFrame) : Prop :=
  f.fin = true ∧ ServerFrameOf f.opcode f.payload item

theorem unmasked_field {len : Nat} {field : Bytes} (form : UnmaskedLength len field)
    (fits : len < 2 ^ 64) : field = lengthField 0 len := by
  unfold lengthField
  cases form with
  | short small =>
    have seven : len &&& 0x7F = len := by
      rw [Nat.and_two_pow_sub_one_eq_mod len 7, Nat.mod_eq_of_lt (by omega)]
    rw [if_pos small, seven, UInt8.zero_or]
  | @medium ext large small two value =>
    have digits := BigEndian.digits_value ext
    rw [two, value] at digits
    rw [if_neg (by omega), if_pos small, digits, UInt8.zero_or]
  | @long ext large eight value =>
    have digits := BigEndian.digits_value ext
    rw [eight, value, Nat.mod_eq_of_lt fits] at digits
    rw [if_neg (by omega), if_neg (by omega), digits, UInt8.zero_or]

theorem serverFrame_built {opcode : UInt8} {payload item : Bytes}
    (frame : ServerFrameOf opcode payload item) (fits : payload.length < 2 ^ 64) :
    item = buildFrame opcode payload true := by
  obtain ⟨field, form, rfl⟩ := frame.shape
  rw [unmasked_field form fits, buildFrame, (known_bits frame.known).1]
  rfl

section
variable {env : Environment}

theorem run_carried (ssl : OpenSsl) {s : WebSocketStreamParser} (idle : Idle s)
    (unmasked : s.require_mask_ = false) {item : Bytes} {f : WsFrame} (carries : Carries item f)
    (fits : f.payload.length ≤ maxPayloadLimit env) (rest : Bytes) :
    run (parserMachine ssl env) s (item ++ rest) =
      (run (parserMachine ssl env) s rest).prepend [.inr f] := by
  obtain ⟨opcode, fin, payload⟩ := f
  obtain ⟨rfl, frame⟩ := carries
  have upper := maxPayloadLimit_upper env
  have known := frame.known
  simp only [knownOpcodes, List.mem_cons, List.not_mem_nil, or_false] at known
  have sendable : Sendable (maxPayloadLimit env) opcode true payload :=
    ⟨by tauto, fun control => ⟨rfl, frame.control control⟩, fits⟩
  have accepted : acceptFrame s ⟨opcode, true, payload⟩ = (s, .ok [⟨opcode, true, payload⟩]) := by
    unfold acceptFrame
    rcases known with rfl | rfl | rfl | rfl | rfl
    · simp [idle.whole]
    · simp [idle.whole]
    · simp [frame.close rfl]
    · simp
    · simp
  rw [serverFrame_built frame (by omega)]
  exact run_built idle.opened unmasked sendable accepted rest

theorem run_carried_all (ssl : OpenSsl) {s : WebSocketStreamParser} (idle : Idle s)
    (unmasked : s.require_mask_ = false) {items : List Bytes} {sent : List WsFrame}
    (carries : List.Forall₂ Carries items sent)
    (fits : ∀ f ∈ sent, f.payload.length ≤ maxPayloadLimit env) :
    run (parserMachine ssl env) s items.flatten = ⟨s, [], sent.map .inr, none⟩ := by
  induction carries with
  | nil =>
    have waits : (parserMachine ssl env).look s [] = .more := by
      simp only [parserMachine, look, idle.opened]
      rfl
    exact run_more _ waits
  | @cons item f items sent first _ ih =>
    obtain ⟨small, rest⟩ := List.forall_mem_cons.mp fits
    rw [List.flatten_cons, run_carried ssl idle unmasked first small, ih rest]
    rfl

end

end StreamParser

namespace MainClient
open FileTransferManager WebSocketCodec Upgrade StreamParser StreamMachine

def returnedFrames (history : Readings) : List WsFrame := history.flatMap fun t => t.output.returned

section
variable {ssl : OpenSsl} {env : Environment} {wsKey : Bytes} {u : Upload} {past : Readings}
  {c : Client} {stream : Bytes}

theorem fedBytes_snoc (past : Readings) (t : Run.Taken Client SslRead Reading) :
    fedBytes (past ++ [t]) = fedBytes past ++ t.output.fed := by
  simp only [fedBytes, List.flatMap_append, List.flatMap_singleton]

theorem returnedFrames_snoc (past : Readings) (t : Run.Taken Client SslRead Reading) :
    returnedFrames (past ++ [t]) = returnedFrames past ++ t.output.returned := by
  simp only [returnedFrames, List.flatMap_append, List.flatMap_singleton]

theorem step_feeds (awaits : c.phase.awaitsFrames = true) (buf : Bytes) :
    (step ssl env wsKey u c (.bytes buf)).2.fed = buf ∧
      (step ssl env wsKey u c (.bytes buf)).1.wsParser = (feed ssl env 0 [] c.wsParser buf).parser ∧
      ((feed ssl env 0 [] c.wsParser buf).thrown = none →
        (step ssl env wsKey u c (.bytes buf)).2.returned =
          (feed ssl env 0 [] c.wsParser buf).outFrames) := by
  obtain ⟨phase, p⟩ := c
  cases phase with
  | text | bitmap | ack | finish =>
    simp only [step, Phase.awaitsFrames, ↓reduceIte]
    cases thrown : (feed ssl env 0 [] p buf).thrown with
    | some what => exact ⟨rfl, rfl, by simp⟩
    | none => exact ⟨rfl, rfl, fun _ => rfl⟩
  | _ => contradiction

theorem step_unfed {r : SslRead} (other : ∀ buf, r = .bytes buf → c.phase.awaitsFrames = false) :
    (step ssl env wsKey u c r).2.fed = [] ∧ (step ssl env wsKey u c r).2.returned = [] ∧
      (step ssl env wsKey u c r).1.wsParser = c.wsParser := by
  obtain ⟨phase, p⟩ := c
  cases r with
  | bytes buf =>
    have idle := other buf rfl
    cases phase with
    | text | bitmap | ack | finish => contradiction
    | _ => exact ⟨rfl, rfl, rfl⟩
  | again => cases phase <;> exact ⟨rfl, rfl, rfl⟩
  | failed => cases phase <;> exact ⟨rfl, rfl, rfl⟩

/-- As long as what was fed is a beginning of the stream, the parser has kept up with it. -/
def KeepsUp (ssl : OpenSsl) (env : Environment) (stream : Bytes) (past : Readings) (c : Client) :
    Prop :=
  fedBytes past <+: stream → Parsed ssl env false (fedBytes past) c.wsParser (returnedFrames past)

theorem step_keepsUp
    (whole : (run (parserMachine ssl env) (freshParser false true) stream).error = none)
    (past : Readings) (c : Client) (r : SslRead) (keeps : KeepsUp ssl env stream past c) :
    KeepsUp ssl env stream
      (past ++ [⟨c, r, (step ssl env wsKey u c r).1, (step ssl env wsKey u c r).2⟩])
      (step ssl env wsKey u c r).1 := by
  intro begins
  rw [fedBytes_snoc] at begins ⊢
  rw [returnedFrames_snoc]
  have before := keeps ((List.prefix_append _ _).trans begins)
  by_cases feeds : ∃ buf, r = .bytes buf ∧ c.phase.awaitsFrames = true
  · obtain ⟨buf, rfl, awaits⟩ := feeds
    obtain ⟨fed, parser, returned⟩ : _ ∧ _ ∧ _ := step_feeds awaits buf
    dsimp only at begins ⊢
    rw [fed] at begins ⊢
    obtain ⟨rest, rfl⟩ := begins
    obtain ⟨throws, parsed⟩ := before.feed 0 [] buf
    have quiet := throws.trans (run_begun _ whole).1
    rw [parser, returned quiet]
    exact parsed quiet
  · have other (buf : Bytes) (same : r = .bytes buf) : c.phase.awaitsFrames = false := by
      by_contra awaits
      exact feeds ⟨buf, same, Bool.not_eq_false _ ▸ awaits⟩
    obtain ⟨fed, returned, parser⟩ : _ ∧ _ ∧ _ := step_unfed other
    dsimp only
    rw [fed, returned, parser, List.append_nil, List.append_nil]
    exact before

theorem run_keepsUp (ssl : OpenSsl) (env : Environment) (wsKey : Bytes) (u : Upload)
    (reads : List SslRead)
    (whole : (run (parserMachine ssl env) (freshParser false true) stream).error = none) :
    KeepsUp ssl env stream (Run.steps (step ssl env wsKey u) connected reads)
      (Run.final (step ssl env wsKey u) connected reads) := by
  have begins : KeepsUp ssl env stream [] connected := fun _ => parsed_nothing ssl env false
  exact Run.invariant_history _ (step_keepsUp whole) reads begins

/-- Nothing is fed, and no frame waited for, before a head is complete and accepted. -/
def HeadFirst (ssl : OpenSsl) (wsKey : Bytes) (past : Readings) (c : Client) : Prop :=
  c.phase.awaitsFrames = true ∨ fedBytes past ≠ [] →
    ∃ t ∈ past, ∃ resp, Completes ssl wsKey t resp

theorem step_headFirst (past : Readings) (c : Client) (r : SslRead)
    (head : HeadFirst ssl wsKey past c) :
    HeadFirst ssl wsKey
      (past ++ [⟨c, r, (step ssl env wsKey u c r).1, (step ssl env wsKey u c r).2⟩])
      (step ssl env wsKey u c r).1 := by
  have older {t : Run.Taken Client SslRead Reading}
      (found : ∃ t ∈ past, ∃ resp, Completes ssl wsKey t resp) :
      ∃ t' ∈ past ++ [t], ∃ resp, Completes ssl wsKey t' resp := by
    obtain ⟨t', mem, completes⟩ := found
    exact ⟨t', List.mem_append_left _ mem, completes⟩
  have move := step_move ssl env wsKey u c r
  generalize step ssl env wsKey u c r = next at move ⊢
  unfold HeadFirst
  rw [fedBytes_snoc]
  cases move with
  | idle _ quiet =>
    intro now
    rw [List.append_nil] at now
    exact older (head now)
  | refused waiting what =>
    intro now
    rw [List.append_nil] at now
    rcases now with awaits | fed
    · contradiction
    · exact older (head (Or.inr fed))
  | gathers waiting open' =>
    intro now
    rw [List.append_nil] at now
    rcases now with awaits | fed
    · contradiction
    · exact older (head (Or.inr fed))
  | @heads resp buf waiting closed =>
    intro now
    rw [List.append_nil] at now
    rcases now with awaits | fed
    · have accepted : checkUpgrade ssl wsKey (resp ++ buf) = .text := by
        unfold checkUpgrade at awaits ⊢
        dsimp only at awaits ⊢
        split at awaits
        · contradiction
        · split at awaits
          · contradiction
          · simp_all
      refine ⟨_, List.mem_append_right _ (List.mem_singleton_self _), resp ++ buf, resp, buf, ?_⟩
      exact ⟨waiting, rfl, rfl, closed, accepted⟩
    · exact older (head (Or.inr fed))
  | breaks awaits what p => exact fun _ => older (head (Or.inl awaits))
  | batch awaits frames p => exact fun _ => older (head (Or.inl awaits))

theorem run_headFirst (ssl : OpenSsl) (env : Environment) (wsKey : Bytes) (u : Upload)
    (reads : List SslRead) :
    HeadFirst ssl wsKey (Run.steps (step ssl env wsKey u) connected reads)
      (Run.final (step ssl env wsKey u) connected reads) := by
  have begins : HeadFirst ssl wsKey [] connected := by
    intro now
    simp [connected, Phase.awaitsFrames, fedBytes] at now
  exact Run.invariant_history _ step_headFirst reads begins

end

theorem frames_carried {items : List Bytes} (frames : ∀ item ∈ items, ServerFrame item) :
    ∃ sent, List.Forall₂ Carries items sent := by
  induction items with
  | nil => exact ⟨[], .nil⟩
  | cons item items ih =>
    obtain ⟨⟨opcode, payload, frame⟩, rest⟩ := List.forall_mem_cons.mp frames
    obtain ⟨sent, carries⟩ := ih rest
    exact ⟨⟨opcode, true, payload⟩ :: sent, .cons ⟨rfl, frame⟩ carries⟩

theorem fits_sent {items : List Bytes} {sent : List WsFrame} {limit : Nat}
    (carries : List.Forall₂ Carries items sent)
    (small : ∀ item ∈ items, ∀ f, Carries item f → f.payload.length ≤ limit) :
    ∀ f ∈ sent, f.payload.length ≤ limit := by
  induction carries with
  | nil => simp
  | cons first _ ih =>
    obtain ⟨here, rest⟩ := List.forall_mem_cons.mp small
    exact List.forall_mem_cons.mpr ⟨here _ first, ih rest⟩

theorem prefix_behind {α : Type} {a b c d : List α} (same : a.length = c.length)
    (front : a ++ b <+: c ++ d) : b <+: d := by
  obtain ⟨rest, whole⟩ := front
  rw [List.append_assoc] at whole
  obtain ⟨_, behind⟩ := List.append_inj whole same
  exact ⟨rest, behind⟩

/-- From the server's threads to the client's loops: where the client's limit has room for every
    frame and no read goes on behind the response, the client's parser throws at nothing the
    connection carries, and what it delivers are the first of the frames pushed, in order; all of
    them once all bytes were fed. -/
theorem frames_delivered (config : WssServer.Config) (disk : FileSystem Bytes)
    (inputs : List WssServer.Input) (c : WssServer.ConnRef) (ssl : OpenSsl) (env : Environment)
    (wsKey : Bytes) (u : Upload) (reads : List SslRead) :
    let items := WssServer.wire c
      (Run.trace (WssServer.step config) (WssServer.start disk) inputs)
    let history := Run.steps (step ssl env wsKey u) connected reads
    readBytes history <+: WssServer.transmitted c
        (Run.steps (WssServer.step config) (WssServer.start disk) inputs) →
      (∀ t ∈ history, ∀ resp, Completes ssl wsKey t resp →
        items.head?.map List.length = some resp.length) →
      (∀ item ∈ items.tail, ∀ f, Carries item f → f.payload.length ≤ maxPayloadLimit env) →
      (∀ t ∈ history, t.before.phase.awaitsFrames = true → ∀ buf, t.input = .bytes buf →
        (feed ssl env 0 [] t.before.wsParser buf).thrown = none) ∧
      ∃ sent, List.Forall₂ Carries items.tail sent ∧ returnedFrames history <+: sent ∧
        (fedBytes history = items.tail.flatten → returnedFrames history = sent) := by
  intro items history carried cut small
  have idle := fresh_idle false
  have inv := WssServer.run_stream config disk inputs
  have shape : items = [] ∨ ∃ accept frames, items = acceptResponse accept :: frames ∧
      ∀ f ∈ frames, ServerFrame f := (inv.wire.streams c).imp id And.left
  have frames : ∀ item ∈ items.tail, ServerFrame item := by
    rcases shape with none | ⟨accept, frames, same, whole⟩
    · simp [none]
    · rw [same]
      exact whole
  obtain ⟨sent, carries⟩ := frames_carried frames
  have parsed := run_carried_all ssl idle rfl carries (fits_sent carries small)
  have whole : (run (parserMachine ssl env) (freshParser false true) items.tail.flatten).error =
      none := by rw [parsed]
  have fed : fedBytes history <+: items.tail.flatten := by
    by_cases none : fedBytes history = []
    · rw [none]
      exact List.nil_prefix
    obtain ⟨t, mem, resp, completes⟩ := (run_headFirst ssl env wsKey u reads) (Or.inr none)
    have read := (run_accounted ssl env wsKey u reads).upgraded t mem resp completes
    have length := cut t mem resp completes
    have reached : readBytes history <+: items.flatten :=
      carried.trans ⟨_, inv.queues c⟩
    cases first : items with
    | nil => simp [first] at length
    | cons response frames =>
      rw [first, List.head?_cons, Option.map_some, Option.some.injEq] at length
      rw [read, first, List.flatten_cons] at reached
      rw [List.tail_cons]
      exact prefix_behind length.symm reached
  constructor
  · intro t mem awaits buf same
    obtain ⟨earlier, later, split⟩ := List.append_of_mem mem
    have begins : KeepsUp ssl env items.tail.flatten [] connected :=
      fun _ => parsed_nothing ssl env false
    have before := Run.invariant_before _ (step_keepsUp whole) begins split
    rw [List.nil_append] at before
    have here : fedBytes earlier ++ buf <+: fedBytes history := by
      have fed : t.output.fed = buf := by
        rw [(Run.steps_taken _ mem).2, same]
        exact (step_feeds awaits buf).1
      rw [← fed, ← fedBytes_snoc]
      exact ⟨fedBytes later, by simp [history, fedBytes, split]⟩
    obtain ⟨rest, begun⟩ := here.trans fed
    have parsed := before ((List.prefix_append _ _).trans (here.trans fed))
    exact (parsed.feed 0 [] buf).1.trans (run_begun _ (begun.symm ▸ whole)).1
  · have returned : returnedFrames history = StreamParser.frames
        (run (parserMachine ssl env) (freshParser false true) (fedBytes history)).outs :=
      (run_keepsUp ssl env wsKey u reads whole fed).frames
    have collected : StreamParser.frames (sent.map .inr) = sent := by
      simpa [StreamParser.frames] using frames_map_inr sent []
    refine ⟨sent, carries, ?_, ?_⟩
    · obtain ⟨rest, complete⟩ := fed
      have outs := (run_begun (parserMachine ssl env) (complete.symm ▸ whole)).2
      rw [complete, parsed] at outs
      rw [returned, ← collected]
      exact outs.filterMap _
    · intro all
      rw [returned, all, parsed, collected]

theorem carries_length {item : Bytes} {f : WsFrame} (carries : Carries item f) :
    f.payload.length ≤ item.length := by
  obtain ⟨field, _, same⟩ := carries.2.shape
  rw [same, List.length_append]
  omega

def pingRun : List WssServer.Input :=
  WssServer.upgradeRun ++ [.io { WssServer.quiet with read := .ret (buildClientPing none [7]) },
    .io WssServer.quiet, .io WssServer.quiet,
    .io { WssServer.quiet with writes := [.wrote 129, .wrote 3] }]

def pingItems : List Bytes :=
  WssServer.wire 0
    (Run.trace (WssServer.step WssServer.plainConfig) (WssServer.start .empty) pingRun)

def pingReadings : Readings :=
  Run.steps (step WssServer.sampleOpenSsl ⟨none, none⟩ (CString.bytes "dGhlIHNhbXBsZSBub25jZQ==")
    oneByteFile) connected (pingItems.map .bytes)

theorem pong_delivered :
    ∃ sent, List.Forall₂ Carries pingItems.tail sent ∧ returnedFrames pingReadings = sent := by
  have carried : readBytes pingReadings <+: WssServer.transmitted 0
      (Run.steps (WssServer.step WssServer.plainConfig) (WssServer.start .empty) pingRun) := by
    decide +kernel
  have lengths : (readBytes pingReadings).length = 132 ∧ (fedBytes pingReadings).length = 3 ∧
      pingItems.head?.map List.length = some 129 := by
    decide +kernel
  have cut : ∀ t ∈ pingReadings, ∀ resp, Completes WssServer.sampleOpenSsl
      (CString.bytes "dGhlIHNhbXBsZSBub25jZQ==") t resp →
      pingItems.head?.map List.length = some resp.length := by
    intro t mem resp completes
    obtain ⟨read, fed, head⟩ := lengths
    have split := (run_accounted _ _ _ _ _).upgraded t mem resp completes
    have total := congrArg List.length split
    rw [List.length_append] at total
    rw [head, Option.some.injEq]
    have whole : (readBytes pingReadings).length = resp.length + (fedBytes pingReadings).length :=
      total
    omega
  have small : ∀ item ∈ pingItems.tail, ∀ f, Carries item f →
      f.payload.length ≤ maxPayloadLimit ⟨none, none⟩ := by
    intro item mem f carries
    have short : ∀ item ∈ pingItems.tail, item.length ≤ maxPayloadLimit ⟨none, none⟩ := by
      decide +kernel
    exact (carries_length carries).trans (short item mem)
  obtain ⟨sent, carries, _, all⟩ := (frames_delivered WssServer.plainConfig .empty pingRun 0
    WssServer.sampleOpenSsl ⟨none, none⟩ (CString.bytes "dGhlIHNhbXBsZSBub25jZQ==") oneByteFile
    (pingItems.map .bytes) carried cut small).2
  have fed : fedBytes pingReadings = pingItems.tail.flatten := by decide +kernel
  exact ⟨sent, carries, all fed⟩

end MainClient
