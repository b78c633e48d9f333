import WebsocketServer.Ws.Delivered

/- The bytes of the frames a server may send: final, unmasked, of a known kind. -/
namespace WebSocketCodec
open StreamParser

/-- The three forms of the length, each with the mask bit clear. The last one holds every
    size_t. -/
inductive UnmaskedLength (len : Nat) : Bytes → Prop where
  | short (small : len ≤ 125) : UnmaskedLength len [UInt8.ofNat len]
  | medium {ext : Bytes} (large : 125 < len) (fits : len ≤ 0xFFFF) (two : ext.length = 2)
      (value : BigEndian.value ext = len) : UnmaskedLength len (126 :: ext)
  | long {ext : Bytes} (large : 0xFFFF < len) (eight : ext.length = 8)
      (value : BigEndian.value ext = len % 2 ^ 64) : UnmaskedLength len (127 :: ext)

/-- One frame as it stands on the wire. The server closes with a status code and no text. -/
structure ServerFrameOf (opcode : UInt8) (payload item : Bytes) : Prop where
  known : opcode ∈ knownOpcodes
  control : 0x8 ≤ opcode → payload.length ≤ 125
  close : opcode = 0x8 → payload.length = 2
  shape : ∃ field, UnmaskedLength payload.length field ∧
    item = (0x80 ||| opcode) :: field ++ payload

def ServerFrame (item : Bytes) : Prop := ∃ opcode payload, ServerFrameOf opcode payload item

theorem lengthField_unmasked (len : Nat) : UnmaskedLength len (lengthField 0 len) := by
  unfold lengthField
  by_cases small : len ≤ 125
  · have seven : len &&& 0x7F = len := by
      rw [Nat.and_two_pow_sub_one_eq_mod len 7, Nat.mod_eq_of_lt (by omega)]
    rw [if_pos small, seven, UInt8.zero_or]
    exact .short small
  rw [if_neg small]
  by_cases fits : len ≤ 0xFFFF
  · rw [if_pos fits]
    exact .medium (by omega) fits (BigEndian.length_digits 2 len)
      (BigEndian.value_digits (by omega))
  · rw [if_neg fits]
    exact .long (by omega) (BigEndian.length_digits 8 len) (BigEndian.value_digits_mod 8 len)

theorem known_bits {opcode : UInt8} (known : opcode ∈ knownOpcodes) :
    opcode &&& 0x0F = opcode ∧ 0x80 ||| opcode ≠ 72 := by
  simp only [knownOpcodes, List.mem_cons, List.not_mem_nil, or_false] at known
  rcases known with rfl | rfl | rfl | rfl | rfl <;> decide

theorem buildFrame_server {opcode : UInt8} {payload : Bytes} (known : opcode ∈ knownOpcodes)
    (control : 0x8 ≤ opcode → payload.length ≤ 125) (close : opcode = 0x8 → payload.length = 2) :
    ServerFrame (buildFrame opcode payload true) := by
  refine ⟨opcode, payload, known, control, close, lengthField 0 payload.length,
    lengthField_unmasked payload.length, ?_⟩
  rw [buildFrame, (known_bits known).1]
  rfl

theorem buildTextFrame_server (text : Bytes) : ServerFrame (buildTextFrame text) :=
  buildFrame_server (by decide) (by intro control; contradiction) (by intro close; contradiction)

theorem buildBinaryFrame_server (data : Bytes) : ServerFrame (buildBinaryFrame data) :=
  buildFrame_server (by decide) (by intro control; contradiction) (by intro close; contradiction)

theorem buildPing_server {payload : Bytes} (small : payload.length ≤ 125) :
    ServerFrame (buildPing payload) :=
  buildFrame_server (by decide) (fun _ => small) (by intro close; contradiction)

theorem buildPong_server {payload : Bytes} (small : payload.length ≤ 125) :
    ServerFrame (buildPong payload) :=
  buildFrame_server (by decide) (fun _ => small) (by intro close; contradiction)

theorem buildClose_server (statusCode : UInt16) : ServerFrame (buildClose statusCode) :=
  buildFrame_server (by decide) (fun _ => by simp) (fun _ => rfl)

/- The first byte tells a frame from a response. -/
theorem serverFrame_not_response {item : Bytes} (frame : ServerFrame item) (accept : Bytes) :
    item ≠ Upgrade.acceptResponse accept := by
  obtain ⟨opcode, payload, known, _, _, field, _, rfl⟩ := frame
  intro same
  have first := congrArg List.head? same
  have http : (CString.bytes "HTTP/1.1 101 Switching Protocols\r\n").head? = some 72 := by decide
  rw [Upgrade.acceptResponse] at first
  simp only [List.append_assoc, List.head?_append, http, Option.some_or] at first
  exact (known_bits known).2 (Option.some.inj first)

end WebSocketCodec
