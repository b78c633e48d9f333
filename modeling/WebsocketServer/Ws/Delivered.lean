import WebsocketServer.Library.Run
import WebsocketServer.Ws.PayloadLimit

/- What feed hands to its caller, whatever came before: complete messages of known kinds. -/
namespace StreamParser
open WebSocketCodec Upgrade

def knownOpcodes : List UInt8 := [0x1, 0x2, 0x8, 0x9, 0xA]

structure WholeMessage (f : WsFrame) : Prop where
  fin : f.fin = true
  opcode : f.opcode ∈ knownOpcodes
  control : 0x8 ≤ f.opcode → f.payload.length ≤ 125
  close : f.opcode = 0x8 → f.payload.length ≠ 1

/-- The opcode of a message under construction is that of its first frame. -/
structure Reassembly (p : WebSocketStreamParser) : Prop where
  inside : p.in_fragment_ = true → p.fragment_opcode_ = 0x1 ∨ p.fragment_opcode_ = 0x2
  outside : p.in_fragment_ = false → p.fragment_opcode_ = 0x0 ∧ p.fragment_payload_ = []

theorem reassembly_same {p q : WebSocketStreamParser} (holds : Reassembly p)
    (fragment : q.in_fragment_ = p.in_fragment_) (opcode : q.fragment_opcode_ = p.fragment_opcode_)
    (payload : q.fragment_payload_ = p.fragment_payload_) : Reassembly q := by
  constructor
  · rw [fragment, opcode]
    exact holds.inside
  · rw [fragment, opcode, payload]
    exact holds.outside

theorem reassembly_construct (requireMaskFromPeer : Bool) :
    Reassembly (construct requireMaskFromPeer) :=
  ⟨by simp [construct], by simp [construct]⟩

theorem reassembly_setOpenMode (p : WebSocketStreamParser) : Reassembly (setOpenMode p) :=
  ⟨by simp [setOpenMode], by simp [setOpenMode]⟩

theorem reject_ok {cond : Bool} {what : String} {u : Unit} (passed : reject cond what = .ok u) :
    cond = false := by
  unfold reject at passed
  by_cases refused : cond = true
  · simp [refused] at passed
  · simpa using refused

theorem readFrame_control {limit off n : Nat} {rm : Bool} {b : Bytes} {f : WsFrame}
    (read : readFrame limit rm b off = .ok (f, n)) (control : 0x8 ≤ f.opcode) :
    f.payload.length ≤ 125 := by
  unfold readFrame at read
  obtain ⟨_, _, read⟩ := bind_ok read
  obtain ⟨_, _, read⟩ := bind_ok read
  obtain ⟨_, _, read⟩ := bind_ok read
  obtain ⟨_, short, read⟩ := bind_ok read
  obtain ⟨len, extended, read⟩ := bind_ok read
  obtain ⟨_, _, read⟩ := bind_ok read
  obtain ⟨key, _, read⟩ := bind_ok read
  obtain ⟨_, _, read⟩ := bind_ok read
  simp only [pure, Except.pure, Except.ok.injEq, Prod.mk.injEq] at read
  have opcode : f.opcode = b.getD off 0 &&& 0x0F := by rw [← read.1]
  have small := reject_ok short
  rw [← opcode] at small
  simp only [ge_iff_le, control, decide_true, Bool.true_and, decide_eq_false_iff_not,
    not_lt] at small
  have plain : extendedLength b (off + 2) (b.getD (off + 1) 0 &&& 0x7F).toNat =
      .ok ((b.getD (off + 1) 0 &&& 0x7F).toNat, off + 2) := by
    unfold extendedLength
    rw [if_neg (by omega), if_neg (by omega)]
    rfl
  rw [plain] at extended
  have length : len.1 = (b.getD (off + 1) 0 &&& 0x7F).toNat := by
    injection extended with same
    rw [← same]
  rw [← read.1]
  dsimp only
  split
  · simp only [length_applyMask, List.length_take]
    omega
  · simp only [List.length_take]
    omega

theorem acceptFrame_whole {p p' : WebSocketStreamParser} {f : WsFrame}
    {verdict : Except String (List WsFrame)} (holds : Reassembly p)
    (control : 0x8 ≤ f.opcode → f.payload.length ≤ 125)
    (accepted : acceptFrame p f = (p', verdict)) :
    Reassembly p' ∧ ∀ fs, verdict = .ok fs → ∀ g ∈ fs, WholeMessage g := by
  have single {g : WsFrame} (whole : WholeMessage g) (fs : List WsFrame)
      (same : (Except.ok [g] : Except String (List WsFrame)) = .ok fs) :
      ∀ g ∈ fs, WholeMessage g := by
    intro g' mem
    obtain rfl := Except.ok.inj same
    rw [List.mem_singleton.mp mem]
    exact whole
  have accepts := acceptFrame_accepts p f
  rw [accepted] at accepts
  cases accepts with
  | refuses => exact ⟨holds, by simp⟩
  | merges _ inside => exact ⟨⟨fun _ => holds.inside inside, by simp [inside]⟩, by simp⟩
  | completes _ inside =>
    refine ⟨⟨by simp, by simp⟩, single ?_⟩
    rcases holds.inside inside with text | binary
    · exact ⟨rfl, by simp [text, knownOpcodes], by simp [text], by simp [text]⟩
    · exact ⟨rfl, by simp [binary, knownOpcodes], by simp [binary], by simp [binary]⟩
  | begins data => exact ⟨⟨fun _ => data, by simp⟩, by simp⟩
  | delivers data =>
    refine ⟨holds, single ?_⟩
    rcases data with text | binary
    · exact ⟨rfl, by simp [text, knownOpcodes], control, by simp [text]⟩
    · exact ⟨rfl, by simp [binary, knownOpcodes], control, by simp [binary]⟩
  | controls known even =>
    refine ⟨holds, single ?_⟩
    refine ⟨rfl, ?_, control, fun close odd => even ⟨close, odd⟩⟩
    rcases known with close | ping | pong
    · simp [close, knownOpcodes]
    · simp [ping, knownOpcodes]
    · simp [pong, knownOpcodes]

theorem parseLoop_whole {limit : Nat} (fuel : Nat) {p : WebSocketStreamParser}
    (holds : Reassembly p) :
    Reassembly (parseLoop limit fuel p).parser ∧
      ∀ f ∈ (parseLoop limit fuel p).outFrames, WholeMessage f := by
  induction fuel generalizing p with
  | zero => exact ⟨holds, by simp [parseLoop]⟩
  | succ fuel ih =>
    cases read : readFrame limit p.require_mask_ p.buffer_ p.parse_offset_ with
    | error halt =>
      obtain ⟨out, same, _⟩ := loop_halts fuel read
      rw [out, same]
      exact ⟨holds, by simp⟩
    | ok found =>
      obtain ⟨f, idx⟩ := found
      have moved : Reassembly { p with parse_offset_ := idx } := ⟨holds.inside, holds.outside⟩
      cases accepted : acceptFrame { p with parse_offset_ := idx } f with
      | mk p' verdict =>
        obtain ⟨still, whole⟩ := acceptFrame_whole moved (readFrame_control read) accepted
        cases verdict with
        | error what =>
          obtain ⟨out, same, _⟩ := loop_refuses fuel read accepted
          rw [out, same]
          exact ⟨still, by simp⟩
        | ok fs =>
          obtain ⟨out, same, _⟩ := loop_accepts fuel read accepted
          obtain ⟨later, rest⟩ := ih still
          rw [out, same]
          refine ⟨later, ?_⟩
          intro g mem
          rcases List.mem_append.mp mem with here | there
          · exact whole fs rfl g here
          · exact rest g there

theorem parseFrames_whole {env : Environment} (seen : NonceTable) {p : WebSocketStreamParser}
    (holds : Reassembly p) (produced : Bool) (response : Bytes) :
    Reassembly (parseFrames env seen p produced response).parser ∧
      ∀ f ∈ (parseFrames env seen p produced response).outFrames, WholeMessage f := by
  obtain ⟨still, whole⟩ := parseLoop_whole (p.buffer_.length + 1)
    holds
  unfold parseFrames
  refine ⟨?_, whole⟩
  dsimp only
  split
  · exact reassembly_same still rfl rfl rfl
  · exact still

theorem feed_whole (ssl : OpenSsl) (env : Environment) (now : UInt64) (seen : NonceTable)
    {p : WebSocketStreamParser} (holds : Reassembly p) (data : Bytes) :
    Reassembly (feed ssl env now seen p data).parser ∧
      ∀ f ∈ (feed ssl env now seen p data).outFrames, WholeMessage f := by
  have longer (b : Bytes) : Reassembly { p with buffer_ := b } := ⟨holds.inside, holds.outside⟩
  cases mode : p.state_ with
  | Open =>
    rw [feed_open ssl env now seen mode]
    exact parseFrames_whole seen (longer _) false []
  | AwaitingHttpUpgrade =>
    rw [feed_awaiting ssl env now seen mode]
    dsimp only
    cases headEnd (p.buffer_ ++ data) with
    | none => exact ⟨longer _, by simp⟩
    | some endPos =>
      dsimp only
      cases checkHead ssl env now seen ((p.buffer_ ++ data).take endPos) with
      | mk answer seen' =>
        cases answer with
        | error what => exact ⟨longer _, by simp⟩
        | ok response =>
          dsimp only
          apply parseFrames_whole seen'
          exact ⟨holds.inside, holds.outside⟩

/-- A call on the parser object. Other parsers share its table of nonces. -/
inductive ParserCall where
  | feed (now : UInt64) (seen : NonceTable) (data : Bytes)
  | setOpenMode

def callParser (ssl : OpenSsl) (env : Environment) (p : WebSocketStreamParser) :
    ParserCall → WebSocketStreamParser × List WsFrame
  | .feed now seen data =>
      ((feed ssl env now seen p data).parser, (feed ssl env now seen p data).outFrames)
  | .setOpenMode => (setOpenMode p, [])

theorem callParser_whole (ssl : OpenSsl) (env : Environment) {p : WebSocketStreamParser}
    (holds : Reassembly p) (call : ParserCall) :
    Reassembly (callParser ssl env p call).1 ∧
      ∀ f ∈ (callParser ssl env p call).2, WholeMessage f := by
  cases call with
  | feed now seen data => exact feed_whole ssl env now seen holds data
  | setOpenMode => exact ⟨reassembly_setOpenMode p, by simp [callParser]⟩

/- Over any sequence of calls, whether or not some of them threw. -/
theorem calls_whole (ssl : OpenSsl) (env : Environment) (requireMaskFromPeer : Bool)
    (calls : List ParserCall) :
    Reassembly (Run.final (callParser ssl env) (construct requireMaskFromPeer) calls) ∧
      ∀ t ∈ Run.steps (callParser ssl env) (construct requireMaskFromPeer) calls,
        ∀ f ∈ t.output, WholeMessage f := by
  have keeps (p : WebSocketStreamParser) (call : ParserCall) (holds : Reassembly p) (_ : True) :
      Reassembly (callParser ssl env p call).1 := (callParser_whole ssl env holds call).1
  obtain ⟨before, last⟩ := Run.invariant_steps Reassembly (fun _ _ => True) keeps
    (reassembly_construct requireMaskFromPeer) (fun _ _ => trivial)
  refine ⟨last, ?_⟩
  intro t mem
  rw [(Run.steps_taken (callParser ssl env) mem).2]
  exact (callParser_whole ssl env (before t mem) t.input).2

end StreamParser
