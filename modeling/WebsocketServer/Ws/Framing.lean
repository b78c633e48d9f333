import WebsocketServer.Ws.RoundTrip

/- Frames with arbitrary header bits, as any peer may send them, and the sequences of them that
   the parser takes. -/
namespace StreamParser
open WebSocketCodec Upgrade StreamMachine

inductive LengthForm where
  | seven
  | sixteen
  | sixtyFour
  deriving DecidableEq

/-- The first length the form has no room for. -/
def LengthForm.capacity : LengthForm → Nat
  | .seven => 126
  | .sixteen => 2 ^ 16
  | .sixtyFour => 2 ^ 64

def LengthForm.low (len : Nat) : LengthForm → Nat
  | .seven => len
  | .sixteen => 126
  | .sixtyFour => 127

def LengthForm.extension (len : Nat) : LengthForm → Bytes
  | .seven => []
  | .sixteen => BigEndian.digits 2 len
  | .sixtyFour => BigEndian.digits 8 len

def minimalForm (len : Nat) : LengthForm :=
  if len ≤ 125 then .seven else if len ≤ 0xFFFF then .sixteen else .sixtyFour

/-- A complete frame. The body is the payload as it is on the wire, behind the mask key if there
    is one. -/
structure WireFrame where
  fin : Bool
  rsv : Fin 8
  opcode : Fin 16
  mask : Option MaskKey
  form : LengthForm
  body : Bytes
  fits : body.length < form.capacity

namespace WireFrame

def firstByte (w : WireFrame) : UInt8 :=
  UInt8.ofNat (128 * w.fin.toNat + 16 * w.rsv.val + w.opcode.val)

def maskBit (w : WireFrame) : UInt8 := if w.mask.isSome then 0x80 else 0

def secondByte (w : WireFrame) : UInt8 := w.maskBit ||| UInt8.ofNat (w.form.low w.body.length)

def key (w : WireFrame) : Bytes := (w.mask.map List.ofFn).getD []

def wire (w : WireFrame) : Bytes :=
  w.firstByte :: w.secondByte :: (w.form.extension w.body.length ++ (w.key ++ w.body))

def payload (w : WireFrame) : Bytes := (w.mask.map fun key => applyMask key w.body).getD w.body

def frame (w : WireFrame) : WsFrame := ⟨UInt8.ofNat w.opcode.val, w.fin, w.payload⟩

def isControl (w : WireFrame) : Bool := decide (8 ≤ w.opcode.val)

def leaves (w : WireFrame) (inside : Bool) : Bool := if w.isControl then inside else !w.fin

end WireFrame

/-- The rules for one frame apart from the form of its length and a mask nobody asked for. inside
    says that a message is unfinished. -/
structure FrameRules (limit : Nat) (requireMask inside : Bool) (w : WireFrame) : Prop where
  reserved : w.rsv = 0
  known : w.opcode = 0x0 ∨ w.opcode = 0x1 ∨ w.opcode = 0x2 ∨ w.opcode = 0x8 ∨ w.opcode = 0x9 ∨
    w.opcode = 0xA
  size : w.body.length ≤ limit
  masked : requireMask = true → w.mask.isSome = true
  control : w.isControl = true → w.fin = true ∧ w.body.length ≤ 125
  close : w.opcode = 0x8 → w.body.length ≠ 1
  continuation : w.opcode = 0x0 → inside = true
  fresh : w.opcode = 0x1 ∨ w.opcode = 0x2 → inside = false

structure RfcFrame (limit : Nat) (requireMask inside : Bool) (w : WireFrame) : Prop
    extends FrameRules limit requireMask inside w where
  minimal : w.form = minimalForm w.body.length
  unmasked : requireMask = false → w.mask = none

/-- A frame as the parser has it: a mask is allowed where none is required, and only a control
    frame is held to one form of the length. -/
structure TakenFrame (limit : Nat) (requireMask inside : Bool) (w : WireFrame) : Prop
    extends FrameRules limit requireMask inside w where
  short : w.isControl = true → w.form = .seven

def Obeys (rule : Bool → WireFrame → Prop) : Bool → List WireFrame → Prop
  | _, [] => True
  | inside, w :: ws => rule inside w ∧ Obeys rule (w.leaves inside) ws

theorem obeys_mono {rule weaker : Bool → WireFrame → Prop}
    (implies : ∀ inside w, rule inside w → weaker inside w) {inside : Bool} {ws : List WireFrame}
    (obeys : Obeys rule inside ws) : Obeys weaker inside ws := by
  induction ws generalizing inside with
  | nil => trivial
  | cons w ws ih => exact ⟨implies inside w obeys.1, ih obeys.2⟩

/-- Everything was consumed and nothing thrown. -/
def TakenWhole (r : FeedResult) : Prop := r.thrown = none ∧ r.parser.buffer_ = []

instance (r : FeedResult) : Decidable (TakenWhole r) := inferInstanceAs (Decidable (_ ∧ _))

section
variable (w : WireFrame)

theorem header_bits : ∀ (fin : Bool) (rsv : Fin 8) (opcode : Fin 16),
    let b := UInt8.ofNat (128 * fin.toNat + 16 * rsv.val + opcode.val)
    (b &&& 0x70 = 0 ↔ rsv = 0) ∧ b &&& 0x0F = UInt8.ofNat opcode.val ∧ (b &&& 0x80 != 0) = fin := by
  decide

theorem first_bits :
    (w.firstByte &&& 0x70 = 0 ↔ w.rsv = 0) ∧ w.firstByte &&& 0x0F = UInt8.ofNat w.opcode.val ∧
      (w.firstByte &&& 0x80 != 0) = w.fin :=
  header_bits w.fin w.rsv w.opcode

theorem opcode_byte : ∀ opcode : Fin 16,
    (UInt8.ofNat opcode.val ≥ 0x8 ↔ 8 ≤ opcode.val) ∧
      ∀ other : Fin 16, UInt8.ofNat opcode.val = UInt8.ofNat other.val ↔ opcode = other := by
  decide

theorem low_small : w.form.low w.body.length < 128 := by
  have fits := w.fits
  cases form : w.form <;> simp only [LengthForm.low, LengthForm.capacity, form] at fits ⊢ <;> omega

theorem second_bits :
    (w.secondByte &&& 0x7F).toNat = w.form.low w.body.length ∧
      (w.secondByte &&& 0x80 != 0) = w.mask.isSome := by
  have flag : w.maskBit = 0 ∨ w.maskBit = 0x80 := by
    unfold WireFrame.maskBit
    split
    · exact .inr rfl
    · exact .inl rfl
  obtain ⟨low, high⟩ := second_byte flag (low_small w)
  refine ⟨low, ?_⟩
  rw [WireFrame.secondByte, high, WireFrame.maskBit]
  cases w.mask <;> rfl

theorem extension_read (b0 b1 : UInt8) (tail : Bytes) :
    extendedLength (b0 :: b1 :: (w.form.extension w.body.length ++ tail)) 2
        (w.form.low w.body.length) =
      .ok (w.body.length, 2 + (w.form.extension w.body.length).length) := by
  have fits := w.fits
  cases form : w.form <;> simp only [form, LengthForm.capacity] at fits
  · rw [LengthForm.low, extendedLength, if_neg (by omega), if_neg (by omega)]
    rfl
  · rw [LengthForm.low, LengthForm.extension, sixteen_read (by omega), BigEndian.length_digits]
  · rw [LengthForm.low, LengthForm.extension, sixtyFour_read (by omega), BigEndian.length_digits]

theorem wire_drop (k : Nat) :
    w.wire.drop (2 + (w.form.extension w.body.length).length + k) = (w.key ++ w.body).drop k := by
  rw [← List.drop_drop, Nat.add_comm 2, ← List.drop_drop]
  simp [WireFrame.wire]

theorem key_read {requireMask : Bool} (allowed : requireMask = true → w.mask.isSome = true) :
    ∃ key : MaskKey,
      readMaskKey requireMask w.mask.isSome w.wire (2 + (w.form.extension w.body.length).length) =
        .ok (key, 2 + (w.form.extension w.body.length).length + w.key.length) ∧
      ∀ k, w.mask = some k → key = k := by
  cases mask : w.mask with
  | none =>
    have off : requireMask = false := by
      cases requireMask with
      | false => rfl
      | true => simp [mask] at allowed
    refine ⟨fun _ => 0, ?_, by simp⟩
    simp [readMaskKey, reject, off, WireFrame.key, mask, bind, Except.bind, pure, Except.pure]
  | some key =>
    refine ⟨key, ?_, by simp⟩
    have four : w.key = List.ofFn key := by simp [WireFrame.key, mask]
    have room : 2 + (w.form.extension w.body.length).length + 4 ≤ w.wire.length := by
      simp only [WireFrame.wire, four, List.length_cons, List.length_append, List.length_ofFn]
      omega
    have behind := wire_drop w 0
    simp only [Nat.add_zero, List.drop_zero, four] at behind
    simp only [readMaskKey, Option.isSome_some, ↓reduceIte, need_room room, bind, Except.bind, pure,
      Except.pure, Except.ok.injEq, Prod.mk.injEq, four, List.length_ofFn, and_true]
    funext i
    have byte := congrArg (fun l => l.getD i.val 0) behind
    simp only [ofFn_getD] at byte
    rw [← byte]
    simp

/- The checks readFrame makes on a header; the opcode is only looked at when the frame is whole. -/
structure HeaderRules (limit : Nat) (requireMask : Bool) : Prop where
  reserved : w.rsv = 0
  control : w.isControl = true → w.fin = true ∧ w.form = .seven
  size : w.body.length ≤ limit
  masked : requireMask = true → w.mask.isSome = true

theorem low_seven : w.form.low w.body.length ≤ 125 ↔ w.form = .seven := by
  have fits := w.fits
  cases form : w.form <;> simp only [LengthForm.low, LengthForm.capacity, form] at fits ⊢
  · exact iff_of_true (by omega) trivial
  · simp
  · simp

theorem control_byte : w.firstByte &&& 0x0F ≥ 0x8 ↔ w.isControl = true := by
  rw [(first_bits w).2.1, (opcode_byte w.opcode).1]
  simp [WireFrame.isControl]

theorem reject_passes {cond : Bool} {what : String} (passes : cond = false) :
    reject cond what = .ok () := by
  simp [reject, passes]

theorem reject_fails {cond : Bool} {what : String} (fails : cond = true) :
    reject cond what = .error (.invalid what) := by
  simp [reject, fails]

theorem control_passes (control : w.isControl = true → w.fin = true ∧ w.form = .seven) :
    w.firstByte &&& 0x0F ≥ 0x8 →
      w.firstByte &&& 0x80 ≠ 0 ∧ (w.secondByte &&& 0x7F).toNat ≤ 125 := by
  intro large
  obtain ⟨last, short⟩ := control ((control_byte w).mp large)
  have fin := (first_bits w).2.2
  rw [(second_bits w).1, low_seven]
  refine ⟨?_, short⟩
  simpa [last] using fin

theorem readFrame_wire {limit : Nat} {requireMask : Bool}
    (rules : HeaderRules w limit requireMask) :
    readFrame limit requireMask w.wire 0 = .ok (w.frame, w.wire.length) := by
  obtain ⟨reserved, opcode, fin⟩ := first_bits w
  obtain ⟨low, masked⟩ := second_bits w
  obtain ⟨key, readKey, same⟩ := key_read w rules.masked
  have length := extension_read w w.firstByte w.secondByte (w.key ++ w.body)
  rw [← low] at length
  have behind := wire_drop w w.key.length
  rw [List.drop_left] at behind
  have read := readFrame_intro (reserved.mpr rules.reserved) (control_passes w rules.control) length
    rules.size (masked ▸ readKey) (by simp only [List.length_cons, List.length_append]; omega)
  have size : w.wire.length =
      2 + (w.form.extension w.body.length).length + w.key.length + w.body.length := by
    simp only [WireFrame.wire, List.length_cons, List.length_append]
    omega
  change readFrame limit requireMask w.wire 0 = .ok (⟨w.firstByte &&& 0x0F,
    w.firstByte &&& 0x80 != 0, if w.secondByte &&& 0x80 != 0 then
      applyMask key ((w.wire.drop _).take w.body.length)
    else (w.wire.drop _).take w.body.length⟩, _) at read
  have body :
      (if w.secondByte &&& 0x80 != 0 then applyMask key w.body else w.body) = w.payload := by
    rw [masked, WireFrame.payload]
    cases mask : w.mask with
    | none => rfl
    | some k => rw [same k mask]; rfl
  rw [read, behind, List.take_length, body, size]
  simp only [opcode, fin, WireFrame.frame]

theorem control_refused (limit : Nat) (requireMask : Bool) (reserved : w.rsv = 0)
    (broken : ¬ (w.isControl = true → w.fin = true ∧ w.form = .seven)) :
    ∃ what, readFrame limit requireMask w.wire 0 = .error (.invalid what) := by
  obtain ⟨rsv, opcode, fin⟩ := first_bits w
  obtain ⟨low, masked⟩ := second_bits w
  have two : need w.wire 0 2 = .ok () := need_room (by simp [WireFrame.wire])
  have b0 : w.wire.getD 0 0 = w.firstByte := rfl
  have b1 : w.wire.getD 1 0 = w.secondByte := rfl
  have clear : (w.firstByte &&& 0x70 != 0) = false := by simpa using rsv.mpr reserved
  obtain ⟨isControl, unfit⟩ := Classical.not_imp.mp broken
  have large : decide (w.firstByte &&& 0x0F ≥ 0x8) = true :=
    decide_eq_true ((control_byte w).mpr isControl)
  by_cases last : w.fin = true
  · have long : ¬ w.form.low w.body.length ≤ 125 :=
      fun short => unfit ⟨last, (low_seven w).mp short⟩
    refine ⟨"Control frame payload too large", ?_⟩
    unfold readFrame
    simp only [two, Nat.zero_add, b0, b1, reject_passes clear, low]
    rw [reject_passes (by simp only [fin, last, Bool.not_true, Bool.and_false]),
      reject_fails (by simp only [large, Bool.true_and, decide_eq_true_eq]; omega)]
    rfl
  · refine ⟨"Control frames must not be fragmented", ?_⟩
    unfold readFrame
    simp only [two, Nat.zero_add, b0, b1, reject_passes clear, low]
    rw [reject_fails (by simp only [large, Bool.true_and, fin]; simpa using last)]
    rfl

theorem readFrame_refused {limit : Nat} {requireMask : Bool}
    (broken : ¬ HeaderRules w limit requireMask) :
    ∃ what, readFrame limit requireMask w.wire 0 = .error (.invalid what) := by
  have reserved := (first_bits w).1
  obtain ⟨low, masked⟩ := second_bits w
  by_cases rsv : w.rsv = 0
  swap
  · have two : need w.wire 0 2 = .ok () := need_room (by simp [WireFrame.wire])
    have b0 : w.wire.getD 0 0 = w.firstByte := rfl
    have set : (w.firstByte &&& 0x70 != 0) = true := by
      simpa using fun clear => rsv (reserved.mp clear)
    refine ⟨"RSV bits set", ?_⟩
    unfold readFrame
    simp only [two, Nat.zero_add, b0, reject_fails set]
    rfl
  by_cases control : w.isControl = true → w.fin = true ∧ w.form = .seven
  swap
  · exact control_refused w limit requireMask rsv control
  have length := extension_read w w.firstByte w.secondByte (w.key ++ w.body)
  rw [← low] at length
  have header : readFrame limit requireMask w.wire 0 = _ :=
    readFrame_header (reserved.mpr rsv) (control_passes w control) length
  rw [header]
  by_cases size : w.body.length ≤ limit
  swap
  · refine ⟨"WS payload too large", ?_⟩
    rw [reject_fails (by simpa using size)]
    rfl
  have fits : decide (w.body.length > limit) = false := by simpa using size
  rw [reject_passes fits, masked]
  by_cases mask : requireMask = true → w.mask.isSome = true
  · exact absurd ⟨rsv, control, size, mask⟩ broken
  · obtain ⟨required, absent⟩ := Classical.not_imp.mp mask
    refine ⟨"Masked bit not set on incoming frame", ?_⟩
    simp only [Bool.not_eq_true] at absent
    simp only [absent, readMaskKey, reject, required, ↓reduceIte, Bool.false_eq_true]
    rfl

theorem length_payload : w.payload.length = w.body.length := by
  cases mask : w.mask with
  | none => simp [WireFrame.payload, mask]
  | some key => simp [WireFrame.payload, mask]

structure MessageRules (inside : Bool) : Prop where
  known : w.opcode = 0x0 ∨ w.opcode = 0x1 ∨ w.opcode = 0x2 ∨ w.opcode = 0x8 ∨ w.opcode = 0x9 ∨
    w.opcode = 0xA
  close : w.opcode = 0x8 → w.body.length ≠ 1
  continuation : w.opcode = 0x0 → inside = true
  fresh : w.opcode = 0x1 ∨ w.opcode = 0x2 → inside = false

theorem opcode_is (code : Fin 16) : w.frame.opcode = UInt8.ofNat code.val ↔ w.opcode = code :=
  (opcode_byte w.opcode).2 code

theorem accepted_leaves {s s' : WebSocketStreamParser} {fs : List WsFrame}
    (accepted : acceptFrame s w.frame = (s', .ok fs)) :
    MessageRules w s.in_fragment_ ∧ s'.in_fragment_ = w.leaves s.in_fragment_ := by
  have accepts := acceptFrame_accepts s w.frame
  rw [accepted] at accepts
  have size := length_payload w
  cases accepts with
  | merges continuation inside more =>
    have code := (opcode_is w 0x0).mp continuation
    refine ⟨⟨.inl code, by simp [code], fun _ => inside, by simp [code]⟩, ?_⟩
    simp_all [WireFrame.leaves, WireFrame.isControl, WireFrame.frame]
  | completes continuation inside last =>
    have code := (opcode_is w 0x0).mp continuation
    refine ⟨⟨.inl code, by simp [code], fun _ => inside, by simp [code]⟩, ?_⟩
    simp_all [WireFrame.leaves, WireFrame.isControl, WireFrame.frame]
  | begins data outside more =>
    have code := data.imp (opcode_is w 0x1).mp (opcode_is w 0x2).mp
    refine ⟨⟨by tauto, ?_, ?_, fun _ => outside⟩, ?_⟩ <;> rcases code with code | code <;>
      simp_all [WireFrame.leaves, WireFrame.isControl, WireFrame.frame]
  | delivers data outside last =>
    have code := data.imp (opcode_is w 0x1).mp (opcode_is w 0x2).mp
    refine ⟨⟨by tauto, ?_, ?_, fun _ => outside⟩, ?_⟩ <;> rcases code with code | code <;>
      simp_all [WireFrame.leaves, WireFrame.isControl, WireFrame.frame]
  | controls known even =>
    have code := known.imp (opcode_is w 0x8).mp (Or.imp (opcode_is w 0x9).mp (opcode_is w 0xA).mp)
    refine ⟨⟨by tauto, ?_, ?_, ?_⟩, ?_⟩ <;> rcases code with code | code | code <;>
      simp_all [WireFrame.leaves, WireFrame.isControl, WireFrame.frame]

theorem rules_accepted {s : WebSocketStreamParser} (rules : MessageRules w s.in_fragment_) :
    ∃ s' fs, acceptFrame s w.frame = (s', .ok fs) := by
  have size : w.frame.payload.length = w.body.length := length_payload w
  rcases rules.known with code | data | data | control | control | control
  · have inside := rules.continuation code
    have opcode : w.frame.opcode = 0x0 := (opcode_is w 0x0).mpr code
    cases last : w.frame.fin <;> simp [acceptFrame, opcode, inside, last]
  · have outside := rules.fresh (.inl data)
    have opcode : w.frame.opcode = 0x1 := (opcode_is w 0x1).mpr data
    cases last : w.frame.fin <;> simp [acceptFrame, opcode, outside, last]
  · have outside := rules.fresh (.inr data)
    have opcode : w.frame.opcode = 0x2 := (opcode_is w 0x2).mpr data
    cases last : w.frame.fin <;> simp [acceptFrame, opcode, outside, last]
  · have even := rules.close control
    have opcode : w.frame.opcode = 0x8 := (opcode_is w 0x8).mpr control
    simp [acceptFrame, opcode, size, even]
  · have opcode : w.frame.opcode = 0x9 := (opcode_is w 0x9).mpr control
    simp [acceptFrame, opcode]
  · have opcode : w.frame.opcode = 0xA := (opcode_is w 0xA).mpr control
    simp [acceptFrame, opcode]

theorem taken_rules {limit : Nat} {requireMask inside : Bool} :
    TakenFrame limit requireMask inside w ↔
      HeaderRules w limit requireMask ∧ MessageRules w inside := by
  constructor
  · intro taken
    exact ⟨⟨taken.reserved, fun control => ⟨(taken.control control).1, taken.short control⟩,
      taken.size, taken.masked⟩, taken.known, taken.close, taken.continuation, taken.fresh⟩
  · intro rules
    obtain ⟨header, message⟩ := rules
    refine ⟨⟨header.reserved, message.known, header.size, header.masked, ?_, message.close,
      message.continuation, message.fresh⟩, fun control => (header.control control).2⟩
    intro control
    obtain ⟨last, short⟩ := header.control control
    have fits := w.fits
    rw [short] at fits
    exact ⟨last, Nat.le_of_lt_succ fits⟩

end

section
variable {ssl : OpenSsl} {env : Environment}

theorem run_untaken {s : WebSocketStreamParser} (opened : s.state_ = .Open) (w : WireFrame)
    (untaken : ¬ TakenFrame (maxPayloadLimit env) s.require_mask_ s.in_fragment_ w) (rest : Bytes) :
    (run (parserMachine ssl env) s (w.wire ++ rest)).error ≠ none := by
  have stops : ∃ what, look ssl env s w.wire = .stop what := by
    simp only [look, opened, lookFrame]
    by_cases header : HeaderRules w (maxPayloadLimit env) s.require_mask_
    · rw [readFrame_wire w header]
      simp only
      cases answer : acceptFrame s w.frame with
      | mk s' verdict =>
        cases verdict with
        | error what => exact ⟨what, rfl⟩
        | ok fs =>
          have message := (accepted_leaves w answer).1
          exact absurd ((taken_rules w).mpr ⟨header, message⟩) untaken
    · obtain ⟨what, refused⟩ := readFrame_refused w header
      exact ⟨what, by rw [refused]⟩
  obtain ⟨what, stop⟩ := stops
  rw [run_stop (parserMachine ssl env) ((parserMachine ssl env).stop_grow rest stop)]
  exact Option.some_ne_none what

theorem run_taken {s : WebSocketStreamParser} (opened : s.state_ = .Open) (w : WireFrame)
    (taken : TakenFrame (maxPayloadLimit env) s.require_mask_ s.in_fragment_ w) (rest : Bytes) :
    ∃ s' fs, s'.state_ = .Open ∧ s'.require_mask_ = s.require_mask_ ∧
      s'.in_fragment_ = w.leaves s.in_fragment_ ∧
      run (parserMachine ssl env) s (w.wire ++ rest) =
        (run (parserMachine ssl env) s' rest).prepend fs := by
  obtain ⟨header, message⟩ := (taken_rules w).mp taken
  obtain ⟨s', fs, accepted⟩ := rules_accepted w message
  have keeps := acceptFrame_keeps s w.frame
  rw [accepted] at keeps
  exact ⟨s', fs.map .inr, keeps.2.2.1.trans opened, keeps.2.2.2, (accepted_leaves w accepted).2,
    run_frame opened (readFrame_wire w header) accepted rest⟩

theorem run_frames {s : WebSocketStreamParser} (opened : s.state_ = .Open) (ws : List WireFrame) :
    ((run (parserMachine ssl env) s (ws.flatMap WireFrame.wire)).error = none ∧
        (run (parserMachine ssl env) s (ws.flatMap WireFrame.wire)).rest = []) ↔
      Obeys (TakenFrame (maxPayloadLimit env) s.require_mask_) s.in_fragment_ ws := by
  induction ws generalizing s with
  | nil =>
    have waits : (parserMachine ssl env).look s [] = .more := by
      simp only [parserMachine, look, opened]
      rfl
    simp [run_more _ waits, Obeys]
  | cons w ws ih =>
    simp only [List.flatMap_cons, Obeys]
    by_cases taken : TakenFrame (maxPayloadLimit env) s.require_mask_ s.in_fragment_ w
    · obtain ⟨s', fs, opened', mask, inside, once⟩ := run_taken opened w taken _
      have next := ih opened'
      rw [mask, inside] at next
      rw [once, ← next]
      simp only [Outcome.prepend, taken, true_and]
    · simp [taken, run_untaken opened w taken]

end

theorem feed_taken_whole (ssl : OpenSsl) (env : Environment) (now : UInt64) (seen : NonceTable)
    (requireMaskFromPeer : Bool) (data : Bytes) :
    TakenWhole (feed ssl env now seen (freshParser requireMaskFromPeer true) data) ↔
      (run (parserMachine ssl env) (freshParser requireMaskFromPeer true) data).error = none ∧
        (run (parserMachine ssl env) (freshParser requireMaskFromPeer true) data).rest = [] := by
  have opened : (freshParser requireMaskFromPeer true).state_ = .Open := rfl
  have agrees := parseFrames_refines ssl env seen
    { freshParser requireMaskFromPeer true with buffer_ := data } rfl rfl false []
  rw [feed_open ssl env now seen opened]
  unfold TakenWhole
  constructor
  · intro taken
    have left := congrArg WebSocketStreamParser.buffer_ (agrees.state taken.1)
    exact ⟨agrees.thrown.symm.trans taken.1, left.symm.trans taken.2⟩
  · intro done
    have live := agrees.thrown.trans done.1
    have left := congrArg WebSocketStreamParser.buffer_ (agrees.state live)
    exact ⟨live, left.trans done.2⟩

theorem minimal_taken {limit : Nat} {requireMask inside : Bool} {w : WireFrame}
    (rfc : RfcFrame limit requireMask inside w) : TakenFrame limit requireMask inside w := by
  refine ⟨rfc.toFrameRules, ?_⟩
  intro control
  have small := (rfc.control control).2
  rw [rfc.minimal, minimalForm, if_pos small]

/- Nothing that RFC 6455 allows is refused. -/
theorem rfc_frames_taken (ssl : OpenSsl) (env : Environment) (now : UInt64) (seen : NonceTable)
    (requireMaskFromPeer : Bool) (ws : List WireFrame)
    (rfc : Obeys (RfcFrame (maxPayloadLimit env) requireMaskFromPeer) false ws) :
    TakenWhole (feed ssl env now seen (freshParser requireMaskFromPeer true)
      (ws.flatMap WireFrame.wire)) := by
  have opened : (freshParser requireMaskFromPeer true).state_ = .Open := rfl
  have taken := obeys_mono (fun _ _ legal => minimal_taken legal) rfc
  exact (feed_taken_whole ssl env now seen requireMaskFromPeer _).mpr
    ((run_frames opened ws).mpr taken)

/-- The parser takes a sequence of frames whole exactly when each obeys the rules of RFC 6455,
    but for the form of a data frame's length and for masks nobody asked for. -/
theorem feed_takes_exactly (ssl : OpenSsl) (env : Environment) (now : UInt64) (seen : NonceTable)
    (requireMaskFromPeer : Bool) (ws : List WireFrame) :
    TakenWhole (feed ssl env now seen (freshParser requireMaskFromPeer true)
        (ws.flatMap WireFrame.wire)) ↔
      Obeys (TakenFrame (maxPayloadLimit env) requireMaskFromPeer) false ws := by
  have opened : (freshParser requireMaskFromPeer true).state_ = .Open := rfl
  exact (feed_taken_whole ssl env now seen requireMaskFromPeer _).trans (run_frames opened ws)

/-- A text of one byte whose length is written in two. -/
def paddedText : WireFrame := ⟨true, 0, 1, some fun _ => 0, .sixteen, [97], by decide⟩

def maskedText : WireFrame := ⟨true, 0, 1, some fun _ => 0, .seven, [97], by decide⟩

theorem rfc_not_enforced :
    ¬ (TakenWhole (feed ⟨id, id⟩ ⟨none, none⟩ 0 [] (freshParser true true)
          ([paddedText].flatMap WireFrame.wire)) ↔
        Obeys (RfcFrame (maxPayloadLimit ⟨none, none⟩) true) false [paddedText]) ∧
      ¬ (TakenWhole (feed ⟨id, id⟩ ⟨none, none⟩ 0 [] (freshParser false true)
          ([maskedText].flatMap WireFrame.wire)) ↔
        Obeys (RfcFrame (maxPayloadLimit ⟨none, none⟩) false) false [maskedText]) := by
  constructor
  · intro claimed
    have padded := (claimed.mp (by decide +kernel)).1.minimal
    exact absurd padded (by decide)
  · intro claimed
    have masked := (claimed.mp (by decide +kernel)).1.unmasked rfl
    exact Option.some_ne_none _ masked

end StreamParser
