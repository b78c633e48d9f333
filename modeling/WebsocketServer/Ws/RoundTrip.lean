import WebsocketServer.Ws.Segmentation

/- Decoding what the encoders build, over whole conversations in both directions. -/
namespace StreamParser
open WebSocketCodec Upgrade StreamMachine

theorem need_room {b : Bytes} {idx n : Nat} (room : idx + n ≤ b.length) :
    need b idx n = .ok () := by
  unfold need
  rw [if_neg (by omega)]

theorem readFrame_header {limit : Nat} {rm : Bool} {b0 b1 : UInt8} {tail : Bytes} {len i : Nat}
    (rsv : b0 &&& 0x70 = 0)
    (control : b0 &&& 0x0F ≥ 0x8 → b0 &&& 0x80 ≠ 0 ∧ (b1 &&& 0x7F).toNat ≤ 125)
    (length : extendedLength (b0 :: b1 :: tail) 2 (b1 &&& 0x7F).toNat = .ok (len, i)) :
    readFrame limit rm (b0 :: b1 :: tail) 0 = do
      reject (decide (len > limit)) "WS payload too large"
      let (mask_key, idx) ← readMaskKey rm (b1 &&& 0x80 != 0) (b0 :: b1 :: tail) i
      need (b0 :: b1 :: tail) idx len
      let payload := ((b0 :: b1 :: tail).drop idx).take len
      let payload := if b1 &&& 0x80 != 0 then applyMask mask_key payload else payload
      return ({ opcode := b0 &&& 0x0F, fin := b0 &&& 0x80 != 0, payload }, idx + len) := by
  have two : need (b0 :: b1 :: tail) 0 2 = .ok () := need_room (by simp)
  have rsvPass : reject (b0 &&& 0x70 != 0) "RSV bits set" = .ok () := by
    simp [reject, rsv]
  have finPass : reject (decide (b0 &&& 0x0F ≥ 0x8) && !(b0 &&& 0x80 != 0))
      "Control frames must not be fragmented" = .ok () := by
    by_cases c : b0 &&& 0x0F ≥ 0x8
    · simp [reject, (control c).1]
    · simp only [reject, c, decide_false, Bool.false_and, Bool.false_eq_true, ↓reduceIte]
  have shortPass : reject (decide (b0 &&& 0x0F ≥ 0x8) && decide ((b1 &&& 0x7F).toNat > 125))
      "Control frame payload too large" = .ok () := by
    by_cases c : b0 &&& 0x0F ≥ 0x8
    · have short := (control c).2
      simp only [reject, c, decide_true, Bool.true_and, decide_eq_true_eq]
      rw [if_neg (by omega)]
    · simp only [reject, c, decide_false, Bool.false_and, Bool.false_eq_true, ↓reduceIte]
  unfold readFrame
  simp only [two, List.getD_cons_zero, Nat.zero_add, List.getD_cons_succ, rsvPass, finPass,
    shortPass, length]
  rfl

theorem readFrame_intro {limit : Nat} {rm : Bool} {b0 b1 : UInt8} {tail : Bytes} {len i j : Nat}
    {key : MaskKey} (rsv : b0 &&& 0x70 = 0)
    (control : b0 &&& 0x0F ≥ 0x8 → b0 &&& 0x80 ≠ 0 ∧ (b1 &&& 0x7F).toNat ≤ 125)
    (length : extendedLength (b0 :: b1 :: tail) 2 (b1 &&& 0x7F).toNat = .ok (len, i))
    (fits : len ≤ limit)
    (mask : readMaskKey rm (b1 &&& 0x80 != 0) (b0 :: b1 :: tail) i = .ok (key, j))
    (room : j + len ≤ (b0 :: b1 :: tail).length) :
    readFrame limit rm (b0 :: b1 :: tail) 0 =
      .ok ({ opcode := b0 &&& 0x0F, fin := b0 &&& 0x80 != 0
             payload :=
               if b1 &&& 0x80 != 0 then applyMask key (((b0 :: b1 :: tail).drop j).take len)
               else ((b0 :: b1 :: tail).drop j).take len }, j + len) := by
  have fitPass : reject (decide (len > limit)) "WS payload too large" = .ok () := by
    simp only [reject, decide_eq_true_eq]
    rw [if_neg (by omega)]
  rw [readFrame_header rsv control length]
  simp only [fitPass, bind, Except.bind, mask, need_room room]
  rfl

theorem seven_bits : ∀ n : Fin 128,
    ((0 : UInt8) ||| UInt8.ofNat n) &&& 0x7F = UInt8.ofNat n ∧
    ((0x80 : UInt8) ||| UInt8.ofNat n) &&& 0x7F = UInt8.ofNat n ∧
    ((0 : UInt8) ||| UInt8.ofNat n) &&& 0x80 = 0 ∧
    ((0x80 : UInt8) ||| UInt8.ofNat n) &&& 0x80 = 0x80 := by decide

theorem second_byte {mask_bit : UInt8} (flag : mask_bit = 0 ∨ mask_bit = 0x80) {n : Nat}
    (small : n < 128) :
    ((mask_bit ||| UInt8.ofNat n) &&& 0x7F).toNat = n ∧
      ((mask_bit ||| UInt8.ofNat n) &&& 0x80) = mask_bit := by
  obtain ⟨low, low', high, high'⟩ := seven_bits ⟨n, small⟩
  have value : (UInt8.ofNat n).toNat = n := by simp only [UInt8.toNat_ofNat']; omega
  rcases flag with rfl | rfl
  · exact ⟨by rw [low, value], high⟩
  · exact ⟨by rw [low', value], high'⟩

theorem sixteen_read {len : Nat} (bound : len < 256 ^ 2) (b0 b1 : UInt8) (tail : Bytes) :
    extendedLength (b0 :: b1 :: (BigEndian.digits 2 len ++ tail)) 2 126 = .ok (len, 2 + 2) := by
  have room : 2 + 2 ≤ (b0 :: b1 :: (BigEndian.digits 2 len ++ tail)).length := by simp
  rw [extendedLength, if_pos rfl, need_room room]
  simp [bind, Except.bind, pure, Except.pure, BigEndian.value_digits bound]

theorem sixtyFour_read {len : Nat} (bound : len < 256 ^ 8) (b0 b1 : UInt8) (tail : Bytes) :
    extendedLength (b0 :: b1 :: (BigEndian.digits 8 len ++ tail)) 2 127 = .ok (len, 2 + 8) := by
  have room : 2 + 8 ≤ (b0 :: b1 :: (BigEndian.digits 8 len ++ tail)).length := by simp
  rw [extendedLength, if_neg (by omega), if_pos rfl, need_room room]
  simp [bind, Except.bind, pure, Except.pure, BigEndian.value_digits bound]

theorem lengthField_read {mask_bit : UInt8} (flag : mask_bit = 0 ∨ mask_bit = 0x80) {len : Nat}
    (bound : len < 2 ^ 64) (b0 : UInt8) (tail : Bytes) :
    ∃ b1 ext, lengthField mask_bit len = b1 :: ext ∧ b1 &&& 0x80 = mask_bit ∧
      (len ≤ 125 → (b1 &&& 0x7F).toNat ≤ 125) ∧
      extendedLength (b0 :: b1 :: (ext ++ tail)) 2 (b1 &&& 0x7F).toNat =
        .ok (len, 2 + ext.length) := by
  unfold lengthField
  by_cases tiny : len ≤ 125
  · rw [if_pos tiny]
    have seven : len &&& 0x7F = len := by
      rw [Nat.and_two_pow_sub_one_eq_mod len 7, Nat.mod_eq_of_lt (by omega)]
    obtain ⟨low, high⟩ := second_byte flag (show len < 128 by omega)
    rw [seven]
    refine ⟨_, [], rfl, high, fun _ => by omega, ?_⟩
    rw [low]
    unfold extendedLength
    rw [if_neg (by omega), if_neg (by omega)]
    rfl
  · rw [if_neg tiny]
    by_cases short : len ≤ 0xFFFF
    · rw [if_pos short]
      obtain ⟨low, high⟩ := second_byte flag (show 126 < 128 by omega)
      refine ⟨_, _, rfl, high, fun h => absurd h tiny, ?_⟩
      change extendedLength _ 2 ((mask_bit ||| UInt8.ofNat 126) &&& 0x7F).toNat = _
      rw [low, sixteen_read (by omega), BigEndian.length_digits]
    · rw [if_neg short]
      obtain ⟨low, high⟩ := second_byte flag (show 127 < 128 by omega)
      refine ⟨_, _, rfl, high, fun h => absurd h tiny, ?_⟩
      change extendedLength _ 2 ((mask_bit ||| UInt8.ofNat 127) &&& 0x7F).toNat = _
      rw [low, sixtyFour_read (by omega), BigEndian.length_digits]

/-- A frame the encoders may be asked for: a known opcode, no fragmented or long control frame. -/
structure Sendable (limit : Nat) (opcode : UInt8) (fin : Bool) (payload : Bytes) : Prop where
  known : opcode = 0x0 ∨ opcode = 0x1 ∨ opcode = 0x2 ∨ opcode = 0x8 ∨ opcode = 0x9 ∨ opcode = 0xA
  control : opcode ≥ 0x8 → fin = true ∧ payload.length ≤ 125
  fits : payload.length ≤ limit

theorem first_byte {limit : Nat} {opcode : UInt8} {fin : Bool} {payload : Bytes}
    (sendable : Sendable limit opcode fin payload) :
    let b0 := (if fin then 0x80 else 0x00) ||| (opcode &&& 0x0F)
    b0 &&& 0x70 = 0 ∧ b0 &&& 0x0F = opcode ∧ (b0 &&& 0x80 != 0) = fin := by
  rcases sendable.known with rfl | rfl | rfl | rfl | rfl | rfl <;> cases fin <;> decide

theorem readFrame_buildFrame {limit : Nat} (size : limit < 2 ^ 64) {opcode : UInt8} {fin : Bool}
    {payload : Bytes} (sendable : Sendable limit opcode fin payload) :
    readFrame limit false (buildFrame opcode payload fin) 0 =
      .ok (⟨opcode, fin, payload⟩, (buildFrame opcode payload fin).length) := by
  have fits := sendable.fits
  obtain ⟨rsv, op, last⟩ := first_byte sendable
  obtain ⟨b1, ext, shape, unmasked, small, length⟩ :=
    lengthField_read (.inl rfl) (show payload.length < 2 ^ 64 by omega)
      ((if fin then 0x80 else 0x00) ||| (opcode &&& 0x0F)) payload
  have key : readMaskKey false (b1 &&& 0x80 != 0)
      (((if fin then 0x80 else 0x00) ||| (opcode &&& 0x0F)) :: b1 :: (ext ++ payload))
      (2 + ext.length) = .ok (fun _ => 0, 2 + ext.length) := by
    simp [readMaskKey, unmasked, reject, bind, Except.bind, pure, Except.pure]
  have read := readFrame_intro rsv
    (fun c =>
      ⟨by have := (sendable.control (op ▸ c)).1; simp_all, small (sendable.control (op ▸ c)).2⟩)
    length fits key (by simp only [List.length_cons, List.length_append]; omega)
  have tail : (((if fin then 0x80 else 0x00) ||| (opcode &&& 0x0F)) :: b1 :: (ext ++ payload)).drop
      (2 + ext.length) = payload := by
    rw [Nat.add_comm, ← List.drop_drop]
    simp
  simp only [buildFrame, shape, List.cons_append]
  rw [read, op, last, tail]
  simp only [unmasked, bne_self_eq_false, Bool.false_eq_true, ↓reduceIte, List.take_length,
    List.length_cons, List.length_append]
  congr 2
  omega

theorem ofFn_getD (key : MaskKey) (rest : Bytes) (i : Fin 4) :
    (List.ofFn key ++ rest).getD i 0 = key i := by
  fin_cases i <;> simp

theorem readFrame_buildClientFrame {limit : Nat} (size : limit < 2 ^ 64) (rm : Bool)
    {opcode : UInt8}
    {payload : Bytes} (rand : Option MaskKey) (sendable : Sendable limit opcode true payload) :
    readFrame limit rm (buildClientFrame rand opcode payload) 0 =
      .ok (⟨opcode, true, payload⟩, (buildClientFrame rand opcode payload).length) := by
  have fits := sendable.fits
  obtain ⟨rsv, op, last⟩ := first_byte sendable
  simp only [↓reduceIte] at rsv op last
  generalize chosen : rand.getD fallbackMaskKey = key
  obtain ⟨b1, ext, shape, masked, small, length⟩ :=
    lengthField_read (.inr rfl) (show payload.length < 2 ^ 64 by omega)
      (0x80 ||| (opcode &&& 0x0F)) (List.ofFn key ++ applyMask key payload)
  have tail (k : Nat) : ((0x80 ||| (opcode &&& 0x0F)) :: b1 ::
      (ext ++ (List.ofFn key ++ applyMask key payload))).drop (2 + ext.length + k) =
        (List.ofFn key ++ applyMask key payload).drop k := by
    rw [← List.drop_drop, Nat.add_comm 2, ← List.drop_drop]
    simp
  have flag : (b1 &&& 0x80 != 0) = true := by rw [masked]; decide
  have readKey : readMaskKey rm (b1 &&& 0x80 != 0) ((0x80 ||| (opcode &&& 0x0F)) :: b1 ::
      (ext ++ (List.ofFn key ++ applyMask key payload))) (2 + ext.length) =
        .ok (key, 2 + ext.length + 4) := by
    unfold readMaskKey
    rw [flag, if_pos rfl, need_room (by simp; omega)]
    simp only [bind, Except.bind, pure, Except.pure, Except.ok.injEq, Prod.mk.injEq, and_true]
    funext i
    have moved := congrArg (fun l => l.getD i 0) (tail 0)
    simp only [List.drop_zero, Nat.add_zero, ofFn_getD] at moved
    rw [← moved]
    simp
  have read := readFrame_intro rsv
    (fun c => ⟨by simp_all, small (sendable.control (op ▸ c)).2⟩)
    length fits readKey (by simp; omega)
  simp only [buildClientFrame, chosen, shape, List.cons_append, List.append_assoc]
  rw [read, op, last, tail]
  have body : (List.ofFn key ++ applyMask key payload).drop 4 = applyMask key payload := by
    rw [List.drop_left']
    simp
  simp only [flag, ↓reduceIte, body]
  rw [List.take_of_length_le (by simp), mask_involutive]
  simp only [List.length_cons, List.length_append, List.length_ofFn, length_applyMask]
  congr 2
  omega

structure ControlFrame where
  opcode : UInt8
  payload : Bytes
  known : opcode = 0x8 ∨ opcode = 0x9 ∨ opcode = 0xA
  short : payload.length ≤ 125
  close : opcode = 0x8 → payload.length ≠ 1

/-- A text or binary frame: a whole message, or the first fragment of one. -/
structure DataFrame (limit : Nat) where
  opcode : UInt8
  payload : Bytes
  known : opcode = 0x1 ∨ opcode = 0x2
  fits : payload.length ≤ limit

abbrev Fragment (limit : Nat) := { payload : Bytes // payload.length ≤ limit }

/-- Every continuation comes with the control frames sent between it and the frame before. -/
structure Message (limit : Nat) where
  first : DataFrame limit
  more : List (List ControlFrame × Fragment limit)

inductive Sent (limit : Nat) where
  | control (c : ControlFrame)
  | message (m : Message limit)

def ControlFrame.frame (c : ControlFrame) : WsFrame := ⟨c.opcode, true, c.payload⟩
def ControlFrame.wire (c : ControlFrame) : Bytes := buildFrame c.opcode c.payload true

def continuationWire {limit : Nat} : List (List ControlFrame × Fragment limit) → Bytes
  | [] => []
  | (controls, fragment) :: more =>
      controls.flatMap ControlFrame.wire ++
        (buildFrame 0x0 fragment.val more.isEmpty ++ continuationWire more)

def Message.wire {limit : Nat} (m : Message limit) : Bytes :=
  buildFrame m.first.opcode m.first.payload m.more.isEmpty ++ continuationWire m.more

/-- A message shows up once, at its last fragment, after the control frames sent inside it. -/
def assembled {limit : Nat} (opcode : UInt8) (sofar : Bytes)
    (more : List (List ControlFrame × Fragment limit)) : List WsFrame :=
  more.flatMap (fun part => part.1.map ControlFrame.frame) ++
    [⟨opcode, true, sofar ++ more.flatMap fun part => part.2.val⟩]

def Message.delivered {limit : Nat} (m : Message limit) : List WsFrame :=
  assembled m.first.opcode m.first.payload m.more

def Sent.wire {limit : Nat} : Sent limit → Bytes
  | .control c => c.wire
  | .message m => m.wire

def Sent.delivered {limit : Nat} : Sent limit → List WsFrame
  | .control c => [c.frame]
  | .message m => m.delivered

section
variable {ssl : OpenSsl} {env : Environment}

theorem run_frame {s s' : WebSocketStreamParser} {wire : Bytes} {f : WsFrame} {fs : List WsFrame}
    (opened : s.state_ = .Open)
    (read : readFrame (maxPayloadLimit env) s.require_mask_ wire 0 = .ok (f, wire.length))
    (accepted : acceptFrame s f = (s', .ok fs)) (rest : Bytes) :
    run (parserMachine ssl env) s (wire ++ rest) =
      (run (parserMachine ssl env) s' rest).prepend (fs.map .inr) := by
  refine run_unit _ rest ?_
  simp only [parserMachine, look, opened, lookFrame, read, accepted]

theorem run_built {s s' : WebSocketStreamParser} {opcode : UInt8} {fin : Bool} {payload : Bytes}
    {fs : List WsFrame} (opened : s.state_ = .Open) (unmasked : s.require_mask_ = false)
    (sendable : Sendable (maxPayloadLimit env) opcode fin payload)
    (accepted : acceptFrame s ⟨opcode, fin, payload⟩ = (s', .ok fs)) (rest : Bytes) :
    run (parserMachine ssl env) s (buildFrame opcode payload fin ++ rest) =
      (run (parserMachine ssl env) s' rest).prepend (fs.map .inr) := by
  have read := readFrame_buildFrame (maxPayloadLimit_upper env) sendable
  rw [← unmasked] at read
  exact run_frame opened read accepted rest

theorem control_sendable (c : ControlFrame) :
    Sendable (maxPayloadLimit env) c.opcode true c.payload := by
  have lower := maxPayloadLimit_lower env
  have short := c.short
  refine ⟨?_, fun _ => ⟨rfl, short⟩, by omega⟩
  rcases c.known with h | h | h <;> simp [h]

theorem data_sendable (d : DataFrame (maxPayloadLimit env)) (fin : Bool) :
    Sendable (maxPayloadLimit env) d.opcode fin d.payload := by
  refine ⟨?_, fun large => ?_, d.fits⟩
  · rcases d.known with h | h <;> simp [h]
  · rcases d.known with h | h <;> rw [h] at large <;> exact absurd large (by decide)

theorem continuation_sendable (fragment : Fragment (maxPayloadLimit env)) (fin : Bool) :
    Sendable (maxPayloadLimit env) 0x0 fin fragment.val :=
  ⟨.inl rfl, fun large => absurd large (by decide), fragment.property⟩

/- Control frames pass through a parser in any fragment state. -/
theorem acceptFrame_control (s : WebSocketStreamParser) (c : ControlFrame) :
    acceptFrame s c.frame = (s, .ok [c.frame]) := by
  have close := c.close
  unfold acceptFrame ControlFrame.frame
  rcases c.known with h | h | h <;> simp_all

theorem run_controls {s : WebSocketStreamParser} (opened : s.state_ = .Open)
    (unmasked : s.require_mask_ = false) (controls : List ControlFrame) (rest : Bytes) :
    run (parserMachine ssl env) s (controls.flatMap ControlFrame.wire ++ rest) =
      (run (parserMachine ssl env) s rest).prepend
        ((controls.map ControlFrame.frame).map .inr) := by
  induction controls with
  | nil => rfl
  | cons c controls ih =>
    rw [List.flatMap_cons, List.append_assoc, ControlFrame.wire,
      run_built opened unmasked (control_sendable c) (acceptFrame_control s c), ih, prepend_prepend]
    rfl

def assembling (s : WebSocketStreamParser) (opcode : UInt8) (payload : Bytes) :
    WebSocketStreamParser :=
  { s with in_fragment_ := true, fragment_opcode_ := opcode, fragment_payload_ := payload }

structure Idle (s : WebSocketStreamParser) : Prop where
  opened : s.state_ = .Open
  whole : s.in_fragment_ = false
  opcode : s.fragment_opcode_ = 0
  payload : s.fragment_payload_ = []

theorem run_continuations {s : WebSocketStreamParser} (idle : Idle s)
    (unmasked : s.require_mask_ = false) (opcode : UInt8)
    (more : List (List ControlFrame × Fragment (maxPayloadLimit env))) (nonempty : more ≠ [])
    (sofar rest : Bytes) :
    run (parserMachine ssl env) (assembling s opcode sofar) (continuationWire more ++ rest) =
      (run (parserMachine ssl env) s rest).prepend ((assembled opcode sofar more).map .inr) := by
  induction more generalizing sofar with
  | nil => contradiction
  | cons part more ih =>
    obtain ⟨controls, fragment⟩ := part
    have opened : (assembling s opcode sofar).state_ = .Open := idle.opened
    have sendable := continuation_sendable fragment more.isEmpty
    simp only [continuationWire, List.append_assoc]
    rw [run_controls opened unmasked]
    cases more with
    | nil =>
      have accepted : acceptFrame (assembling s opcode sofar) ⟨0x0, true, fragment.val⟩ =
          (s, .ok [⟨opcode, true, sofar ++ fragment.val⟩]) := by
        simp [acceptFrame, assembling, ← idle.whole, ← idle.opcode, ← idle.payload]
      rw [run_built opened unmasked sendable accepted, prepend_prepend]
      simp [continuationWire, assembled]
    | cons next more =>
      have accepted : acceptFrame (assembling s opcode sofar) ⟨0x0, false, fragment.val⟩ =
          (assembling s opcode (sofar ++ fragment.val), .ok []) := by
        simp [acceptFrame, assembling]
      rw [run_built opened unmasked sendable accepted, ih (by simp), prepend_prepend,
        prepend_prepend]
      simp [assembled]

theorem run_sent {s : WebSocketStreamParser} (idle : Idle s) (unmasked : s.require_mask_ = false)
    (event : Sent (maxPayloadLimit env)) (rest : Bytes) :
    run (parserMachine ssl env) s (event.wire ++ rest) =
      (run (parserMachine ssl env) s rest).prepend (event.delivered.map .inr) := by
  cases event with
  | control c =>
    exact run_built idle.opened unmasked (control_sendable c) (acceptFrame_control s c) rest
  | message m =>
    obtain ⟨first, more⟩ := m
    have sendable := data_sendable first more.isEmpty
    simp only [Sent.wire, Message.wire, Sent.delivered, Message.delivered, List.append_assoc]
    cases more with
    | nil =>
      have accepted : acceptFrame s ⟨first.opcode, true, first.payload⟩ =
          (s, .ok [⟨first.opcode, true, first.payload⟩]) := by
        unfold acceptFrame
        rcases first.known with h | h <;> simp [h, idle.whole]
      rw [run_built idle.opened unmasked sendable accepted]
      simp [continuationWire, assembled]
    | cons part more =>
      have accepted : acceptFrame s ⟨first.opcode, false, first.payload⟩ =
          (assembling s first.opcode first.payload, .ok []) := by
        unfold acceptFrame assembling
        rcases first.known with h | h <;> simp [h, idle.whole]
      rw [run_built idle.opened unmasked sendable accepted,
        run_continuations idle unmasked first.opcode _ (by simp)]
      rfl

theorem run_conversation (ssl : OpenSsl) {s : WebSocketStreamParser} (idle : Idle s)
    (unmasked : s.require_mask_ = false) (events : List (Sent (maxPayloadLimit env)))
    (rest : Bytes) :
    run (parserMachine ssl env) s (events.flatMap Sent.wire ++ rest) =
      (run (parserMachine ssl env) s rest).prepend ((events.flatMap Sent.delivered).map .inr) := by
  induction events with
  | nil => rfl
  | cons event events ih =>
    rw [List.flatMap_cons, List.append_assoc, run_sent idle unmasked, ih, prepend_prepend,
      List.flatMap_cons, List.map_append]

/-- What a client may send: whole messages and control frames. -/
inductive ClientSent (limit : Nat) where
  | control (c : ControlFrame)
  | data (d : DataFrame limit)

def ClientSent.frame {limit : Nat} : ClientSent limit → WsFrame
  | .control c => c.frame
  | .data d => ⟨d.opcode, true, d.payload⟩

/-- Each frame is masked with the key its own call of RAND_bytes returned. -/
def clientWire {limit : Nat} (sent : Option MaskKey × ClientSent limit) : Bytes :=
  buildClientFrame sent.1 sent.2.frame.opcode sent.2.frame.payload

theorem run_client (ssl : OpenSsl) {s : WebSocketStreamParser} (idle : Idle s)
    (sent : List (Option MaskKey × ClientSent (maxPayloadLimit env))) (rest : Bytes) :
    run (parserMachine ssl env) s (sent.flatMap clientWire ++ rest) =
      (run (parserMachine ssl env) s rest).prepend ((sent.map fun x => x.2.frame).map .inr) := by
  induction sent with
  | nil => rfl
  | cons x sent ih =>
    obtain ⟨rand, event⟩ := x
    have sendable : Sendable (maxPayloadLimit env) event.frame.opcode true event.frame.payload := by
      cases event with
      | control c => exact control_sendable c
      | data d => exact data_sendable d true
    have accepted : acceptFrame s event.frame = (s, .ok [event.frame]) := by
      cases event with
      | control c => exact acceptFrame_control s c
      | data d =>
        unfold acceptFrame ClientSent.frame
        rcases d.known with h | h <;> simp [h, idle.whole]
    have shape : (⟨event.frame.opcode, true, event.frame.payload⟩ : WsFrame) = event.frame := by
      cases event <;> rfl
    have read := readFrame_buildClientFrame (maxPayloadLimit_upper env) s.require_mask_ rand
      sendable
    rw [shape] at read
    rw [List.flatMap_cons, List.append_assoc, clientWire, run_frame idle.opened read accepted, ih,
      prepend_prepend]
    rfl

end

theorem fresh_idle (requireMaskFromPeer : Bool) : Idle (freshParser requireMaskFromPeer true) :=
  ⟨rfl, rfl, rfl, rfl⟩

theorem feed_consumed {ssl : OpenSsl} {env : Environment} (requireMaskFromPeer : Bool)
    {data : Bytes} {fs : List WsFrame} (now : UInt64) (seen : NonceTable)
    (consumed : run (parserMachine ssl env) (freshParser requireMaskFromPeer true) data =
      (start (freshParser requireMaskFromPeer true)).prepend (fs.map .inr)) :
    feed ssl env now seen (freshParser requireMaskFromPeer true) data =
      ⟨freshParser requireMaskFromPeer true, seen, false, [], fs, none⟩ := by
  have agrees := parseFrames_refines ssl env seen
    { freshParser requireMaskFromPeer true with buffer_ := data } rfl rfl false []
  have same : bare { freshParser requireMaskFromPeer true with buffer_ := data } =
      freshParser requireMaskFromPeer true := rfl
  rw [feed_open ssl env now seen rfl]
  simp only [same, ↓reduceIte, prepend_nil] at agrees
  change parseFrames env seen { freshParser requireMaskFromPeer true with buffer_ := data }
    false [] = _
  rw [consumed] at agrees
  have quiet : (parseFrames env seen { freshParser requireMaskFromPeer true with buffer_ := data }
      false []).thrown = none := agrees.thrown
  have parser := agrees.state quiet
  have delivered := agrees.delivered
  simp only [Outcome.prepend, start, List.append_nil] at parser delivered
  have collected : frames (fs.map .inr) = fs := by
    simpa [frames] using frames_map_inr fs []
  rw [collected] at delivered
  cases result : parseFrames env seen { freshParser requireMaskFromPeer true with buffer_ := data }
      false [] with
  | mk p seen' produced response out thrown =>
    rw [result] at quiet parser delivered
    have fixed : seen' = seen ∧ produced = false ∧ response = [] := by
      simp only [parseFrames, FeedResult.mk.injEq] at result
      exact ⟨result.2.1.symm, result.2.2.1.symm, result.2.2.2.1.symm⟩
    simp only at quiet parser delivered
    simp only [quiet, parser, delivered, fixed]
    rfl

theorem feed_conversation (ssl : OpenSsl) (env : Environment) (now : UInt64) (seen : NonceTable)
    (events : List (Sent (maxPayloadLimit env))) :
    feed ssl env now seen (freshParser false true) (events.flatMap Sent.wire) =
      ⟨freshParser false true, seen, false, [], events.flatMap Sent.delivered, none⟩ := by
  have h := run_conversation ssl (fresh_idle false) rfl events []
  rw [List.append_nil, run_more _ (fresh_waits ssl env false true)] at h
  exact feed_consumed false now seen h

/-- Decoding undoes encoding: a client-side parser returns the conversation built by buildFrame,
    a server-side parser the one built by buildClientFrame under any mask keys. -/
theorem conversation_roundtrip (ssl : OpenSsl) (env : Environment) (now : UInt64)
    (seen : NonceTable) (events : List (Sent (maxPayloadLimit env)))
    (sent : List (Option MaskKey × ClientSent (maxPayloadLimit env))) :
    feed ssl env now seen (setOpenMode (construct false)) (events.flatMap Sent.wire) =
        ⟨setOpenMode (construct false), seen, false, [], events.flatMap Sent.delivered, none⟩ ∧
      feed ssl env now seen (setOpenMode (construct true)) (sent.flatMap clientWire) =
        ⟨setOpenMode (construct true), seen, false, [], sent.map fun x => x.2.frame, none⟩ := by
  constructor
  · exact feed_conversation ssl env now seen events
  · have h := run_client ssl (fresh_idle true) sent []
    rw [List.append_nil, run_more _ (fresh_waits ssl env true true)] at h
    exact feed_consumed true now seen h

end StreamParser
