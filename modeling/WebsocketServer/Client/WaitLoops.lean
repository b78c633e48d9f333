import WebsocketServer.Library.Run
import WebsocketServer.Client.Upload
import WebsocketServer.Ws.StreamParser

/- What the command line client reads: the head of the response, then one wait loop after
   another, each of them over the frames that one SSL_read brings. -/
namespace MainClient
open FileTransferManager WebSocketCodec Upgrade StreamParser

/-- SSL_read: bytes, an error that asks for another try, or any other error. -/
inductive SslRead where
  | bytes (buf : Bytes)
  | again
  | failed
  deriving DecidableEq

/-- std::string::find. -/
def find (needle : Bytes) : Bytes → Option Nat
  | [] => if needle = [] then some 0 else none
  | c :: rest =>
      if (c :: rest).take needle.length = needle then some 0 else (find needle rest).map (· + 1)

def getWsAcceptFromResponse (resp : Bytes) : Bytes :=
  let key := CString.bytes "Sec-WebSocket-Accept:"
  match find key resp with
  | none => []
  | some pos =>
      let value := (resp.drop (pos + key.length)).dropWhile fun c => c == space || c == 9
      match find (CString.bytes "\r\n") value with
      | none => []
      | some length => value.take length

inductive Exit where
  | continues
  | breaks
  | throws (what : String)
  deriving DecidableEq

/-- The tests that the loops of the upload share: binary, not empty, no FILE_ERROR. -/
def examineBinary (f : WsFrame) (body : UInt8 → Exit) : Exit :=
  if f.opcode ≠ 0x2 then .continues
  else
    match f.payload with
    | [] => .continues
    | msgType :: _ =>
        if msgType = MSG_FILE_ERROR ∧ f.payload.length ≥ 3 then
          .throws "server file protocol error"
        else body msgType

def bitmapFrame (f : WsFrame) : Exit := examineBinary f fun _ => .continues

def ackFrame (chunkIndex : UInt32) (f : WsFrame) : Exit :=
  examineBinary f fun msgType =>
    if msgType ≠ MSG_FILE_CHUNK_ACK then .continues
    else if f.payload.length < 1 + 8 + 4 + 1 then .continues
    else if readU32BE (f.payload.drop (1 + 8)) = chunkIndex then .breaks
    else .continues

def finishFrame (f : WsFrame) : Exit :=
  examineBinary f fun msgType => if msgType = MSG_FILE_FINISH_ACK then .breaks else .continues

inductive Phase where
  | upgrade (resp : Bytes)
  | text
  | bitmap
  | ack (chunkIndex : UInt32) (later : List UInt32)
  | finish
  | gotFinish
  | textOnly
  | thrown (what : String)
  deriving DecidableEq

def Phase.awaitsFrames : Phase → Bool
  | .text | .bitmap | .ack _ _ | .finish => true
  | _ => false

/-- The body of the loop over the frames of one read; the text loop looks at all of them. -/
def Phase.body : Phase → WsFrame → Exit
  | .bitmap => bitmapFrame
  | .ack chunkIndex _ => ackFrame chunkIndex
  | .finish => finishFrame
  | _ => fun _ => .continues

/-- for (const auto& f : frames): the frames that were looked at, and how the loop ended. -/
def waitLoop (body : WsFrame → Exit) : List WsFrame → List WsFrame × Exit
  | [] => ([], .continues)
  | f :: frames =>
      match body f with
      | .continues => (f :: (waitLoop body frames).1, (waitLoop body frames).2)
      | exit => ([f], exit)

def gotText (examined : List WsFrame) : Bool := examined.any fun f => f.opcode == 0x1

/-- The last response of the batch is the one that stays in bitmap. -/
def gotBitmap (examined : List WsFrame) : Option Bytes :=
  (examined.filterMap fun f =>
    if f.opcode = 0x2 then (parseQueryResponse f.payload).map (·.2) else none).getLast?

namespace Upload
variable (u : Upload)

def sendChunk : List UInt32 → Phase
  | [] => .finish
  | chunkIndex :: later =>
      match u.readChunk chunkIndex with
      | none => .thrown "read chunk failed"
      | some _ => .ack chunkIndex later

def afterLoop (phase : Phase) (examined : List WsFrame) : Exit → Phase
  | .throws what => .thrown what
  | .breaks =>
      match phase with
      | .ack _ later => u.sendChunk later
      | .finish => .gotFinish
      | phase => phase
  | .continues =>
      match phase with
      | .text =>
          if gotText examined then if u.filePath = [] then .textOnly else .bitmap else .text
      | .bitmap =>
          match gotBitmap examined with
          | none => .bitmap
          | some bitmap => u.sendChunk (u.missingChunks bitmap)
      | phase => phase

end Upload

structure Client where
  phase : Phase
  wsParser : WebSocketStreamParser
  deriving DecidableEq

structure Reading where
  read : Bytes := []
  fed : Bytes := []
  returned : List WsFrame := []
  examined : List WsFrame := []
  deriving DecidableEq

def connected : Client := ⟨.upgrade [], setOpenMode (construct false)⟩

section
variable (ssl : OpenSsl) (env : Environment) (wsKey : Bytes)

def checkUpgrade (resp : Bytes) : Phase :=
  let accept := getWsAcceptFromResponse resp
  if accept = [] then .thrown "missing Sec-WebSocket-Accept"
  else if accept ≠ computeAccept ssl wsKey then .thrown "Sec-WebSocket-Accept mismatch"
  else .text

/-- readUntilDoubleCrlf up to the response, readFramesOnce and the loop around it from then on.
    The parser is in Open mode, where feed looks at neither the clock nor the nonces. -/
def step (u : Upload) (c : Client) (r : SslRead) : Client × Reading :=
  match c.phase, r with
  | .upgrade resp, .bytes buf =>
      let resp := resp ++ buf
      let phase := if headEnd resp = none then .upgrade resp else checkUpgrade ssl wsKey resp
      ({ c with phase }, { read := buf })
  | .upgrade _, .failed =>
      ({ c with phase := .thrown "read websocket upgrade response failed" }, {})
  | phase, .bytes buf =>
      if phase.awaitsFrames then
        let result := feed ssl env 0 [] c.wsParser buf
        match result.thrown with
        | some what => (⟨.thrown what, result.parser⟩, { read := buf, fed := buf })
        | none =>
            let (examined, exit) := waitLoop phase.body result.outFrames
            (⟨u.afterLoop phase examined exit, result.parser⟩,
              { read := buf, fed := buf, returned := result.outFrames, examined })
      else (c, {})
  | _, _ => (c, {})

end

end MainClient
