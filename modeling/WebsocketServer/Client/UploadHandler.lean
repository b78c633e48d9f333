import WebsocketServer.Client.WebCodec
import WebsocketServer.Client.WebCrc

/- The upload handler of the page, and the queue and the waiter through which it gets its binary
   messages. An event and the microtasks behind it are one step: a handler that is resumed runs
   until it awaits something that has not come yet. -/
namespace WebPage
open JavaScript FileTransferManager

/-- BigInts; charCodeAt gives the code units of the string. -/
def fnv1a64 (str : List UInt16) : Nat :=
  str.foldl (fun h unit => ((h ^^^ unit.toNat) * 1099511628211) &&& 0xffffffffffffffff)
    1469598103934665603

/-- What a handler works on once its file is read. No array has 2^53 elements. -/
structure Upload where
  name : List UInt16
  chunkSize : Nat
  data : Bytes
  chunkSize_ge : 1024 ≤ chunkSize
  size : data.length < 2 ^ 53
  deriving DecidableEq

inductive Answer where
  | start
  | query
  | ack (chunkIndex : Nat) (later : List Nat)
  | finish
  deriving DecidableEq

inductive Thrown where
  | readFailed
  | notConnected
  | fileError (error : Option (Int × Bytes))
  | responseType (msgType : Option UInt8)
  | secondResponseType (msgType : Option UInt8)
  | responseShort
  | bitmapIncomplete
  | chunkLength
  | chunkBuffer
  | timeout
  | reset
  deriving DecidableEq

/-- Where the function of one click is. It returns early when FILE_FINISH_ACK comes before the last
    chunk is acknowledged. -/
inductive Handler where
  | reading (name : List UInt16) (chunkSize : Nat) (chunkSize_ge : 1024 ≤ chunkSize)
  | awaits (u : Upload) (answer : Answer)
  | returned
  | ended (error : Option Thrown)
  deriving DecidableEq

namespace Handler

def waiting : Handler → Bool
  | .awaits .. => true
  | _ => false

def live : Handler → Bool
  | .reading .. | .awaits .. => true
  | _ => false

def done : Handler → Bool
  | .ended _ => true
  | _ => false

end Handler

def readU16BE (u8 : Bytes) (o : Nat) : Int :=
  bitOr (shiftLeft (byteAt u8 o) 8) (byteAt u8 (o + 1))

/-- The code and the text of a FILE_ERROR, unless it is too short to have them. -/
def handleFileError (u8 : Bytes) : Option (Int × Bytes) :=
  if u8.length < 3 then none else some (readU16BE u8 1, subarray u8 3 u8.length)

def responseBitmap (u8 : Bytes) : Except Thrown Bytes :=
  match Codec.parseQueryResponse u8 with
  | some (_, bitmap) => .ok bitmap
  | none => .error (if u8.length < 1 + 8 + 4 + 4 then .responseShort else .bitmapIncomplete)

namespace Upload
variable (u : Upload)

/-- Math.ceil(fileSize / chunkSize) | 0. Below 2^53 the quotient never rounds over an integer. -/
def totalChunks : Int := toInt32 (u.data.length ⌈/⌉ u.chunkSize)

def expectedCrc : Int := crc32Bytes u.data

def fileId : Nat := fnv1a64 u.name

def startMessage : Option Bytes :=
  Codec.buildFileStart u.fileId u.data.length u.chunkSize u.totalChunks u.expectedCrc u.name

def curLen (chunkIndex : Nat) : Nat := min (u.data.length - chunkIndex * u.chunkSize) u.chunkSize

def slice (chunkIndex : Nat) : Bytes :=
  let offset := chunkIndex * u.chunkSize
  subarray u.data offset (offset + u.curLen chunkIndex)

def missingChunks (bitmap : Bytes) : List Nat :=
  (List.range u.totalChunks.toNat).filter (bitmapMissing bitmap)

/-- One round of the chunk loop up to the await, or what comes behind the loop. -/
def sendChunk : List Nat → Handler × List Bytes
  | [] => (.awaits u .finish, [])
  | chunkIndex :: later =>
      if (chunkIndex : Int) + 1 ≠ u.totalChunks ∧ u.curLen chunkIndex ≠ u.chunkSize then
        (.ended (some .chunkLength), [])
      else
        let slice := u.slice chunkIndex
        let chunkCrc := crc32Bytes slice
        match Codec.buildFileChunk u.fileId chunkIndex chunkCrc (u.curLen chunkIndex) slice with
        | none => (.ended (some .chunkBuffer), [])
        | some payload => (.awaits u (.ack chunkIndex later), [payload])

/-- The handler goes on with a message, up to its next await; with it what it sends. -/
def resume (answer : Answer) (u8 : Bytes) : Handler × List Bytes :=
  if u8.head? = some MSG_FILE_ERROR then (.ended (some (.fileError (handleFileError u8))), [])
  else
    match answer with
    | .start =>
        if u8.head? ≠ some MSG_FILE_QUERY_RESPONSE then
          (.ended (some (.responseType u8.head?)), [])
        else
          match responseBitmap u8 with
          | .error error => (.ended (some error), [])
          | .ok _ => (.awaits u .query, [Codec.buildFileQuery u.fileId])
    | .query =>
        if u8.head? ≠ some MSG_FILE_QUERY_RESPONSE then
          (.ended (some (.secondResponseType u8.head?)), [])
        else
          match responseBitmap u8 with
          | .error error => (.ended (some error), [])
          | .ok bitmap => u.sendChunk (u.missingChunks bitmap)
    | .ack chunkIndex later =>
        match Codec.ackIdx u8 with
        | some ackIdx =>
            if ackIdx = chunkIndex then u.sendChunk later
            else (.awaits u (.ack chunkIndex later), [])
        | none =>
            if u8.head? = some MSG_FILE_FINISH_ACK then (.returned, [])
            else (.awaits u (.ack chunkIndex later), [])
    | .finish =>
        if u8.head? = some MSG_FILE_FINISH_ACK then (.ended none, [])
        else (.awaits u .finish, [])

end Upload

inductive ReadyState where
  | connecting
  | open
  | closing
  | closed
  deriving DecidableEq

/-- What a send makes of what a handler has run up to: null has no send, a socket that is not
    connected yet refuses it, and what a closing one is given goes nowhere. -/
def transmit (ready : Option ReadyState) (r : Handler × List Bytes) : Handler × List Bytes :=
  if r.2 = [] then r
  else
    match ready with
    | none | some .connecting => (.ended (some .notConnected), [])
    | some .open => r
    | some .closing | some .closed => (r.1, [])

/-- The variables of the page. The sockets are all that were ever made, and ws is the number of one;
    the waiter is the number of the handler that made it; the handlers are those of all clicks that
    were not refused. -/
structure Page where
  sockets : List ReadyState := []
  ws : Option Nat := none
  binQueue : List Bytes := []
  binWaiter : Option Nat := none
  uploadInProgress : Bool := false
  handlers : List Handler := []
  deriving DecidableEq

/-- What happens to the page, in any order and whether a button is disabled or not; every click on
    connect makes a socket, also beside others. A click on upload comes with the name and the size
    of the chosen file and with what parseInt makes of the chunk size field, none for NaN. A file
    is read or cannot be read. A timer belongs to a handler that waits, and fires once for each
    wait. -/
inductive Event where
  | connect
  | opened (socket : Nat)
  | disconnect
  | closed (socket : Nat)
  | message (socket : Nat) (u8 : Bytes)
  | click (name : List UInt16) (size : Nat) (parsed : Option Int)
  | loaded (handler : Nat) (data : Option { data : Bytes // data.length < 2 ^ 53 })
  | timeout (handler : Nat)
  deriving DecidableEq

/-- The messages that went out, those that came, those that handlers went on with, and those that
    a reset threw away. -/
structure Effect where
  sent : List Bytes := []
  received : List Bytes := []
  handed : List (Nat × Bytes) := []
  dropped : List Bytes := []
  deriving DecidableEq

/-- A handler and the queue it takes its messages from, until it awaits more than there is: the
    handler, what is left of the queue, what it sent and what it took. -/
def drain (ready : Option ReadyState) :
    Handler → List Bytes → Handler × List Bytes × List Bytes × List Bytes
  | .awaits u answer, u8 :: binQueue =>
      let (handler, sent) := transmit ready (u.resume answer u8)
      let (handler, left, later, taken) := drain ready handler binQueue
      (handler, left, sent ++ later, u8 :: taken)
  | handler, binQueue => (handler, binQueue, [], [])

namespace Page
variable (p : Page)

/-- None for null. -/
def readyState : Option ReadyState := p.ws.bind (p.sockets[·]?)

def settle (k : Nat) (handler : Handler) : Page :=
  { p with
    binWaiter := if handler.waiting then some k else p.binWaiter
    uploadInProgress := if handler.done then false else p.uploadInProgress
    handlers := p.handlers.set k handler }

def proceed (k : Nat) (handler : Handler) (messages : List Bytes) : Page × Effect :=
  let (handler, binQueue, sent, taken) := drain p.readyState handler messages
  ({ p with binQueue }.settle k handler, { sent, handed := taken.map fun u8 => (k, u8) })

def rejectBinaryWaiter (error : Thrown) : Page :=
  match p.binWaiter with
  | none => p
  | some k => { p with binWaiter := none }.settle k (.ended (some error))

def resetBinaryDemux : Page × Effect :=
  ({ p with binQueue := [] }.rejectBinaryWaiter .reset, { dropped := p.binQueue })

def pushBinary (u8 : Bytes) : Page × Effect :=
  match p.binWaiter with
  | none => ({ p with binQueue := p.binQueue ++ [u8] }, { received := [u8] })
  | some k =>
      let handler := p.handlers.getD k .returned
      let (page, effect) := { p with binWaiter := none }.proceed k handler (u8 :: p.binQueue)
      (page, { effect with received := [u8] })

/-- parseInt(chunkSizeEl.value, 10) || 16384 -/
def chosenSize : Option Int → Int
  | none => 16384
  | some parsed => if parsed = 0 then 16384 else parsed

/-- The click handler up to the await of the file; it is resumed by loaded. -/
def click (name : List UInt16) (size : Nat) (parsed : Option Int) : Page × Effect :=
  if p.readyState ≠ some .open ∨ p.uploadInProgress then (p, {})
  else
    let (page, effect) := { p with uploadInProgress := true }.resetBinaryDemux
    let chunkSize := chosenSize parsed
    if ge : chunkSize < 1024 then ({ page with uploadInProgress := false }, effect)
    else if size > 2 ^ 53 - 1 then ({ page with uploadInProgress := false }, effect)
    else
      ({ page with handlers := page.handlers ++ [.reading name chunkSize.toNat (by omega)] },
        effect)

def announce (k : Nat) (u : Upload) : Page × Effect :=
  if p.ws = none then (p.settle k (.ended (some .notConnected)), {})
  else
    match u.startMessage with
    | none => (p.settle k (.ended (some .chunkBuffer)), {})
    | some out =>
        let begun := transmit p.readyState (.awaits u .start, [out])
        let (page, effect) := p.proceed k begun.1 p.binQueue
        (page, { effect with sent := begun.2 ++ effect.sent })

def loaded (k : Nat) (data : Option { data : Bytes // data.length < 2 ^ 53 }) : Page × Effect :=
  match p.handlers[k]?, data with
  | some (.reading ..), none => (p.settle k (.ended (some .readFailed)), {})
  | some (.reading name chunkSize chunkSize_ge), some data =>
      p.announce k ⟨name, chunkSize, data, chunkSize_ge, data.property⟩
  | _, _ => (p, {})

/-- The timer of a waiting handler; it looks at whatever waiter is there. -/
def timeout (k : Nat) : Page × Effect :=
  match p.handlers[k]?, p.binWaiter with
  | some (.awaits ..), some _ =>
      ({ p with binWaiter := none }.settle k (.ended (some .timeout)), {})
  | _, _ => (p, {})

def onclose (i : Nat) : Page × Effect :=
  let (page, effect) := { p with uploadInProgress := false }.resetBinaryDemux
  ({ page with sockets := p.sockets.set i .closed, ws := none }, effect)

def step (p : Page) : Event → Page × Effect
  | .connect =>
      ({ p with sockets := p.sockets ++ [.connecting], ws := some p.sockets.length }, {})
  | .opened i =>
      if p.sockets[i]? = some .connecting then
        ({ p with sockets := p.sockets.set i .open }, {})
      else (p, {})
  | .disconnect =>
      match p.ws with
      | none => (p, {})
      | some i =>
          if p.sockets[i]? = some .closed then (p, {})
          else ({ p with sockets := p.sockets.set i .closing }, {})
  | .closed i =>
      match p.sockets[i]? with
      | none | some .closed => (p, {})
      | some _ => p.onclose i
  | .message i u8 => if p.sockets[i]? = some .open then p.pushBinary u8 else (p, {})
  | .click name size parsed => p.click name size parsed
  | .loaded k data => p.loaded k data
  | .timeout k => p.timeout k

end Page

end WebPage
