import WebsocketServer.Ws.Codec
import WebsocketServer.Ws.Upgrade

/- WebSocketStreamParser. The parser object is explicit state; feed also reports what the
   caller's out parameters hold when it returns or throws. -/
namespace StreamParser
open WebSocketCodec Upgrade

inductive State where
  | AwaitingHttpUpgrade
  | Open
  deriving DecidableEq, Repr

structure WebSocketStreamParser where
  state_ : State := .AwaitingHttpUpgrade
  buffer_ : Bytes := []
  parse_offset_ : Nat := 0
  require_mask_ : Bool := true
  in_fragment_ : Bool := false
  fragment_opcode_ : UInt8 := 0
  fragment_payload_ : Bytes := []
  deriving DecidableEq, Repr

def construct (requireMaskFromPeer : Bool) : WebSocketStreamParser :=
  { require_mask_ := requireMaskFromPeer }

def setOpenMode (p : WebSocketStreamParser) : WebSocketStreamParser :=
  { p with
    state_ := .Open, parse_offset_ := 0, buffer_ := []
    in_fragment_ := false, fragment_opcode_ := 0, fragment_payload_ := [] }

/-- The two ways an iteration ends early: the loop breaks to wait for bytes, or it throws. -/
inductive Halt where
  | incomplete
  | invalid (what : String)
  deriving DecidableEq, Repr

/-- if (buffer_.size() - idx < n) break; -/
def need (buffer_ : Bytes) (idx n : Nat) : Except Halt Unit :=
  if buffer_.length - idx < n then .error .incomplete else .ok ()

def reject (cond : Bool) (what : String) : Except Halt Unit :=
  if cond then .error (.invalid what) else .ok ()

def extendedLength (buffer_ : Bytes) (idx payload_len : Nat) : Except Halt (Nat × Nat) :=
  if payload_len = 126 then do
    need buffer_ idx 2
    return (BigEndian.value ((buffer_.drop idx).take 2), idx + 2)
  else if payload_len = 127 then do
    need buffer_ idx 8
    return (BigEndian.value ((buffer_.drop idx).take 8), idx + 8)
  else return (payload_len, idx)

def readMaskKey (require_mask_ masked : Bool) (buffer_ : Bytes) (idx : Nat) :
    Except Halt (MaskKey × Nat) :=
  if masked then do
    need buffer_ idx 4
    return (fun i => buffer_.getD (idx + i) 0, idx + 4)
  else do
    reject require_mask_ "Masked bit not set on incoming frame"
    return (fun _ => 0, idx)

/-- One wire frame, starting at parse_offset_; also the offset just past it. Header checks
    fire as soon as the bytes they need have arrived, before the payload has. -/
def readFrame (kMaxPayload : Nat) (require_mask_ : Bool) (buffer_ : Bytes) (parse_offset_ : Nat) :
    Except Halt (WsFrame × Nat) := do
  need buffer_ parse_offset_ 2
  let idx := parse_offset_
  let b0 := buffer_.getD idx 0
  let b1 := buffer_.getD (idx + 1) 0
  let fin := b0 &&& 0x80 != 0
  let opcode := b0 &&& 0x0F
  reject (b0 &&& 0x70 != 0) "RSV bits set"
  let masked := b1 &&& 0x80 != 0
  let payload_len := (b1 &&& 0x7F).toNat
  reject (decide (opcode ≥ 0x8) && !fin) "Control frames must not be fragmented"
  reject (decide (opcode ≥ 0x8) && decide (payload_len > 125)) "Control frame payload too large"
  let (payload_len, idx) ← extendedLength buffer_ (idx + 2) payload_len
  reject (decide (payload_len > kMaxPayload)) "WS payload too large"
  let (mask_key, idx) ← readMaskKey require_mask_ masked buffer_ idx
  need buffer_ idx payload_len
  let payload := (buffer_.drop idx).take payload_len
  let payload := if masked then applyMask mask_key payload else payload
  return ({ opcode, fin, payload }, idx + payload_len)

/-- What the loop body does with a frame it has read: continuations are merged, complete
    messages and control frames are delivered. -/
def acceptFrame (p : WebSocketStreamParser) (f : WsFrame) :
    WebSocketStreamParser × Except String (List WsFrame) :=
  if f.opcode = 0x0 then
    if !p.in_fragment_ then (p, .error "Unexpected continuation frame")
    else
      let joined := p.fragment_payload_ ++ f.payload
      if f.fin then
        ({ p with in_fragment_ := false, fragment_opcode_ := 0, fragment_payload_ := [] },
          .ok [{ opcode := p.fragment_opcode_, fin := true, payload := joined }])
      else ({ p with fragment_payload_ := joined }, .ok [])
  else if f.opcode = 0x1 ∨ f.opcode = 0x2 then
    if p.in_fragment_ then (p, .error "New data frame while fragmented")
    else if f.fin then (p, .ok [{ opcode := f.opcode, fin := true, payload := f.payload }])
    else
      ({ p with
          in_fragment_ := true
          fragment_opcode_ := f.opcode
          fragment_payload_ := f.payload }, .ok [])
  else if f.opcode = 0x8 ∨ f.opcode = 0x9 ∨ f.opcode = 0xA then
    if f.opcode = 0x8 ∧ f.payload.length = 1 then (p, .error "Invalid close payload length")
    else (p, .ok [{ opcode := f.opcode, fin := true, payload := f.payload }])
  else (p, .error "Unknown opcode")

/-- The object, the frames pushed to outFrames and the exception text, if one was thrown. -/
structure LoopResult where
  parser : WebSocketStreamParser
  outFrames : List WsFrame
  thrown : Option String
  deriving DecidableEq, Repr

/-- while (true) of feed. An iteration that does not leave the loop consumes at least two bytes. -/
def parseLoop (kMaxPayload : Nat) : Nat → WebSocketStreamParser → LoopResult
  | 0, p => ⟨p, [], none⟩
  | fuel + 1, p =>
      match readFrame kMaxPayload p.require_mask_ p.buffer_ p.parse_offset_ with
      | .error .incomplete => ⟨p, [], none⟩
      | .error (.invalid what) => ⟨p, [], some what⟩
      | .ok (f, idx) =>
          match acceptFrame { p with parse_offset_ := idx } f with
          | (p', .error what) => ⟨p', [], some what⟩
          | (p', .ok frames) =>
              let r := parseLoop kMaxPayload fuel p'
              { r with outFrames := frames ++ r.outFrames }

/-- if (parse_offset_ > 0) buffer_.erase(...); -/
def compact (p : WebSocketStreamParser) : WebSocketStreamParser :=
  { p with buffer_ := p.buffer_.drop p.parse_offset_, parse_offset_ := 0 }

structure FeedResult where
  parser : WebSocketStreamParser
  seen : NonceTable
  producedAccept : Bool
  outAcceptResponse : Bytes
  outFrames : List WsFrame
  thrown : Option String
  deriving DecidableEq, Repr

section
variable (ssl : OpenSsl) (env : Environment)

/-- The frame half of feed, entered in Open mode. A throw leaves parse_offset_ and the buffer
    as the last iteration had them. -/
def parseFrames (seen : NonceTable) (p : WebSocketStreamParser) (producedAccept : Bool)
    (outAcceptResponse : Bytes) : FeedResult :=
  let r := parseLoop (maxPayloadLimit env) (p.buffer_.length + 1) p
  { parser := if r.thrown.isNone then compact r.parser else r.parser
    seen, producedAccept, outAcceptResponse
    outFrames := r.outFrames, thrown := r.thrown }

/-- tryConsumeUpgrade: none while the head is incomplete. -/
def tryConsumeUpgrade (now : UInt64) (seen : NonceTable) (p : WebSocketStreamParser) :
    Option (Except String (Bytes × WebSocketStreamParser) × NonceTable) :=
  match headEnd p.buffer_ with
  | none => none
  | some endPos =>
      match checkHead ssl env now seen (p.buffer_.take endPos) with
      | (.error what, seen) => some (.error what, seen)
      | (.ok response, seen) =>
          some (.ok (response,
            { p with buffer_ := p.buffer_.drop endPos, parse_offset_ := 0, state_ := .Open }), seen)

def feed (now : UInt64) (seen : NonceTable) (p : WebSocketStreamParser) (data : Bytes) :
    FeedResult :=
  let p := { p with buffer_ := p.buffer_ ++ data }
  match p.state_ with
  | .Open => parseFrames env seen p false []
  | .AwaitingHttpUpgrade =>
      match tryConsumeUpgrade ssl env now seen p with
      | none => ⟨p, seen, false, [], [], none⟩
      | some (.error what, seen) => ⟨p, seen, false, [], [], some what⟩
      | some (.ok (response, p), seen) => parseFrames env seen p true response

end

end StreamParser
