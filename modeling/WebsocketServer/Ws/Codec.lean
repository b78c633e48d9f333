import WebsocketServer.Library.BigEndian
import WebsocketServer.Library.CString

/- Frame encoders of WebSocketCodec. Server frames are sent unmasked; client frames carry
   a four-byte mask key taken from RAND_bytes. -/
namespace WebSocketCodec

structure WsFrame where
  opcode : UInt8 := 0
  fin : Bool := true
  payload : Bytes := []
  deriving DecidableEq, Repr

abbrev MaskKey := Fin 4 → UInt8

/-- The second header byte and the extended length; mask_bit is 0x80 in client frames. -/
def lengthField (mask_bit : UInt8) (len : Nat) : Bytes :=
  if len ≤ 125 then [mask_bit ||| UInt8.ofNat (len &&& 0x7F)]
  else if len ≤ 0xFFFF then (mask_bit ||| 126) :: BigEndian.digits 2 len
  else (mask_bit ||| 127) :: BigEndian.digits 8 len

def buildFrame (opcode : UInt8) (payload : Bytes) (fin : Bool) : Bytes :=
  ((if fin then 0x80 else 0x00) ||| (opcode &&& 0x0F)) :: lengthField 0 payload.length ++ payload

def buildTextFrame (text : Bytes) : Bytes := buildFrame 0x1 text true
def buildBinaryFrame (data : Bytes) : Bytes := buildFrame 0x2 data true
def buildPing (payload : Bytes) : Bytes := buildFrame 0x9 payload true
def buildPong (payload : Bytes) : Bytes := buildFrame 0xA payload true

def buildClose (statusCode : UInt16) : Bytes :=
  buildFrame 0x8 [((statusCode >>> 8) &&& 0xFF).toUInt8, (statusCode &&& 0xFF).toUInt8] true

def fallbackMaskKey : MaskKey := ![0x12, 0x34, 0x56, 0x78]

/-- payload[i] ^ mask_key[i % 4], used both to mask and to unmask. -/
def applyMask (mask_key : MaskKey) (payload : Bytes) : Bytes :=
  payload.mapIdx fun i b => b ^^^ mask_key (Fin.ofNat 4 i)

/-- rand is the result of RAND_bytes; none selects the deterministic fallback. -/
def buildClientFrame (rand : Option MaskKey) (opcode : UInt8) (payload : Bytes) : Bytes :=
  let mask_key := rand.getD fallbackMaskKey
  (0x80 ||| (opcode &&& 0x0F)) :: lengthField 0x80 payload.length ++ List.ofFn mask_key ++
    applyMask mask_key payload

def buildClientBinaryFrame (rand : Option MaskKey) (data : Bytes) : Bytes :=
  buildClientFrame rand 0x2 data
def buildClientPing (rand : Option MaskKey) (payload : Bytes) : Bytes :=
  buildClientFrame rand 0x9 payload

@[simp] theorem length_applyMask (mask_key : MaskKey) (payload : Bytes) :
    (applyMask mask_key payload).length = payload.length := by
  simp [applyMask]

theorem mask_involutive (mask_key : MaskKey) (payload : Bytes) :
    applyMask mask_key (applyMask mask_key payload) = payload := by
  apply List.ext_getElem
  · simp
  · intro i _ _
    simp [applyMask]

end WebSocketCodec
