import Mathlib.Logic.Function.Basic
import WebsocketServer.Common.ErrorCodes
import WebsocketServer.Common.ThreadPool
import WebsocketServer.File.TransferManager
import WebsocketServer.Server.Connection

/- WssServer::run with its worker threads. The IO thread and every worker take small steps in
   any order; a step reaches up to the next point where another thread could come between.
   epoll_wait may report any events on any descriptor. -/
namespace WssServer
open StreamParser WebSocketCodec Upgrade

structure Config where
  ssl : OpenSsl
  env : Environment
  wsIdleTimeoutSec : Int := 120
  wsServerPingIntervalSec : Int := 0
  hardware_concurrency : Nat

namespace Config

def idleTimeoutSec (config : Config) : Int :=
  if config.wsIdleTimeoutSec ≤ 0 then 120 else config.wsIdleTimeoutSec

def pingIntervalSec (config : Config) : Int :=
  let sec :=
    if config.wsServerPingIntervalSec ≤ 0 then max 5 (config.idleTimeoutSec.tdiv 3)
    else config.wsServerPingIntervalSec
  if sec ≥ config.idleTimeoutSec then max 5 (config.idleTimeoutSec.tdiv 2) else sec

def workerCount (config : Config) : Nat :=
  max 2 (min 16 (if config.hardware_concurrency = 0 then 8 else config.hardware_concurrency))

def max_early_data (config : Config) : Nat :=
  if config.env.WSS_ENABLE_0RTT = some "1" then 16 * 1024 else 0

end Config

/-- A shared_ptr to a connection object. -/
abbrev ConnRef := Nat

inductive Message where
  | text (payload : Bytes)
  | binary (payload : Bytes)
  deriving DecidableEq

/-- A submitted lambda. It holds the connection weakly. -/
structure Task where
  weak : ConnRef
  message : Message
  deriving DecidableEq

/-- Where a worker is: waiting for a task, before weak.lock(), holding the connection, holding
    the frames of its reply, past the check of closing, inside outbound_mu, or behind the push,
    where updateInterest and notifyIoThreadOutbound are called. -/
inductive Worker where
  | waiting
  | fetched (ticket : Nat) (task : Task)
  | locked (ticket : Nat) (task : Task)
  | replying (ticket : Nat) (conn : ConnRef) (frames : List Bytes)
  | appending (ticket : Nat) (conn : ConnRef) (frames : List Bytes)
  | notifying (conn : ConnRef)
  deriving DecidableEq

def Worker.holds : Worker → Option ConnRef
  | .waiting | .fetched _ _ => none
  | .locked _ task => some task.weak
  | .replying _ conn _ | .appending _ conn _ | .notifying conn => some conn

structure Events where
  EPOLLIN : Bool := false
  EPOLLOUT : Bool := false
  EPOLLERR : Bool := false
  EPOLLHUP : Bool := false
  EPOLLRDHUP : Bool := false

/-- The locals of one pass through the event dispatch. -/
structure Visit where
  fd : Nat
  c : ConnRef
  e : Events

inductive Caller where
  | driveTlsEarlyRead
  | readLoop
  deriving DecidableEq

inductive IoState where
  | epollWait
  | advanceTlsHandshake (v : Visit)
  | driveTlsEarlyRead (v : Visit)
  | driveTlsAccept (v : Visit)
  | handshakePending (v : Visit)
  | handshakeDone (v : Visit)
  | readable (v : Visit)
  | readLoop (v : Visit)
  | inbound (v : Visit) (caller : Caller) (buf : Bytes)
  | sendUpgrade (v : Visit) (caller : Caller) (acceptResp : Bytes) (frames : List WsFrame)
  | nextFrame (v : Visit) (caller : Caller) (frames : List WsFrame)
  | sendClose (v : Visit) (caller : Caller) (code : UInt16)
  | flushIfDone (v : Visit) (caller : Caller) (frames : List WsFrame)
  | writable (v : Visit)
  | timerPing (now : TimePoint) (all todo : List Nat)
  | flushEach (todo : List Nat) (timer : Option (TimePoint × List Nat))
  | timerSweep (now : TimePoint) (all : List Nat)
  | closeEach (todo : List Nat)

def IoState.holds : IoState → Option ConnRef
  | .advanceTlsHandshake v | .driveTlsEarlyRead v | .driveTlsAccept v | .handshakePending v
  | .handshakeDone v | .readable v | .readLoop v | .inbound v _ _ | .sendUpgrade v _ _ _
  | .nextFrame v _ _ | .sendClose v _ _ | .flushIfDone v _ _ | .writable v => some v.c
  | .epollWait | .timerPing _ _ _ | .flushEach _ _ | .timerSweep _ _ | .closeEach _ => none

structure Server where
  conns : AList fun _ : Nat => ConnRef
  objects : ConnRef → Connection
  allocated : Nat
  nextConnId : UInt64
  io : IoState
  pool : ThreadPool Task
  workers : Nat → Worker
  fileManager : FileTransferManager.Manager
  seen : NonceTable
  tx_bytes_total : UInt64

inductive ItemKind where
  | upgrade | pong | closeReply | unsupported | ping
  | reply (ticket : Nat)
  deriving DecidableEq

/-- What the server does that others can tell: each SSL_write call with tls_done at that moment,
    each critical section that pushes to an outbound queue, the arrival of a Close frame, and
    the submission and the effect of each message. -/
inductive Observation where
  | sslWrite (c : ConnRef) (tls_done : Bool)
  | enqueued (c : ConnRef) (kind : ItemKind) (items : List Bytes)
  | peerClose (c : ConnRef)
  | submitted (c : ConnRef) (ticket : Nat) (message : Message)
  | handled (c : ConnRef) (ticket : Nat) (message : Message)
  deriving DecidableEq

inductive EarlyResult where
  | success (plain : Bytes)
  | finish
  | want
  | error

inductive AcceptResult where
  | done
  | want
  | error

/-- The bytes SSL_read returned; none at all is the orderly end of the peer. -/
inductive ReadResult where
  | ret (plain : Bytes)
  | want
  | error

/-- The answers to the calls of one step of the IO thread. -/
structure Answers where
  now : TimePoint
  now_seconds : UInt64
  early : EarlyResult
  accept : AcceptResult
  read : ReadResult
  writes : List WriteResult
  order : FileTransferManager.OldestFirst
  unlinkOk : UInt64 → Bool

/-- accept4 gives descriptors that are not in use; order is the iteration order of conns. -/
inductive Input where
  | epoll (fd : Nat) (e : Events)
  | listen (cfd : Nat) (now : TimePoint) (added : Bool)
  | timer (now : TimePoint) (order : List Nat)
  | wake (order : List Nat)
  | io (sys : Answers)
  | worker (w : Nat) (sys : FileTransferManager.SysResults)

abbrev Stepped := Server × List Observation

namespace Server

def modify (s : Server) (c : ConnRef) (f : Connection → Connection) : Server :=
  { s with objects := Function.update s.objects c (f (s.objects c)) }

def goto (s : Server) (io : IoState) : Server := { s with io }

def setWorker (s : Server) (w : Nat) (state : Worker) : Server :=
  { s with workers := Function.update s.workers w state }

/-- A critical section on outbound_mu waits for the worker inside it. -/
def whenUnlocked (s : Server) (c : ConnRef) (r : Stepped) : Stepped :=
  if (s.objects c).outbound_mu = none then r else (s, [])

def sent (s : Server) (c : ConnRef) (r : Flushed) : Server :=
  { s.modify c fun conn => { conn with outbound := r.outbound } with
    tx_bytes_total := r.tx_bytes_total }

def sslWrites (s : Server) (c : ConnRef) (r : Flushed) : List Observation :=
  List.replicate r.calls (.sslWrite c (s.objects c).tls_done)

def flush (s : Server) (sys : Answers) (c : ConnRef) : Flushed :=
  flushOutbound sys.writes (s.objects c) s.tx_bytes_total

def closeConnection (s : Server) (fd : Nat) : Server :=
  match s.conns.lookup fd with
  | none => s
  | some c => { s.modify c Connection.close with conns := s.conns.erase fd }

end Server

def isValidCloseCode (code : UInt16) : Bool :=
  !(code < 1000 || code ≥ 5000) && !(code = 1004 || code = 1005 || code = 1006 || code = 1015)

def closeCode (payload : Bytes) : UInt16 :=
  if payload.length ≥ 2 then
    let code := (payload.getD 0 0).toUInt16 <<< 8 ||| (payload.getD 1 0).toUInt16
    if isValidCloseCode code then code else 1002
  else 1000

def unsupportedText (opcode : UInt8) : Bytes :=
  error_codes.buildTextError .UNSUPPORTED_OPCODE
    ("unsupported websocket opcode=" ++ toString opcode.toNat)

/-- TlsReadBufferGuard hands out blocks of this size. -/
def kTlsReadBytes : Nat := 16 * 1024

/-- The number of plain bytes is SSL_read_early_data's readbytes. -/
def driveTlsEarlyRead (sys : Answers) (s : Server) (v : Visit) : Stepped :=
  match sys.early with
  | .success plain =>
      if plain = [] then (s, [])
      else (s.goto (.inbound v .driveTlsEarlyRead (plain.take kTlsReadBytes)), [])
  | .finish =>
      ((s.modify v.c fun c => { c with tls_early_read_finished := true }).goto
        (.driveTlsAccept v), [])
  | .want => (s.goto (.handshakePending v), [])
  | .error => s.whenUnlocked v.c ((s.closeConnection v.fd).goto .epollWait, [])

def driveTlsAccept (sys : Answers) (s : Server) (v : Visit) : Stepped :=
  match sys.accept with
  | .done => ((s.modify v.c fun c => { c with tls_done := true }).goto (.handshakeDone v), [])
  | .want => (s.goto (.handshakePending v), [])
  | .error => s.whenUnlocked v.c ((s.closeConnection v.fd).goto .epollWait, [])

def advanceTlsHandshake (s : Server) (v : Visit) : Stepped :=
  let c := s.objects v.c
  if c.tls_done then (s.goto (.handshakeDone v), [])
  else if c.tls_early_read_finished = false then (s.goto (.driveTlsEarlyRead v), [])
  else (s.goto (.driveTlsAccept v), [])

def takeParser (s : Server) (c : ConnRef) (r : FeedResult) : Server :=
  { s.modify c fun conn => { conn with ws := r.parser } with seen := r.seen }

/-- A throw of the parser closes the connection and ends the caller's loop. -/
def processResult (sys : Answers) (s : Server) (v : Visit) (caller : Caller) (r : FeedResult) :
    Stepped :=
  match r.thrown, r.outAcceptResponse with
  | some _, _ =>
      s.whenUnlocked v.c (((takeParser s v.c r).closeConnection v.fd).goto
        (match caller with
          | .driveTlsEarlyRead => .epollWait
          | .readLoop => .writable v), [])
  | none, [] => ((takeParser s v.c r).goto (.nextFrame v caller r.outFrames), [])
  | none, b :: acceptResp =>
      (((takeParser s v.c r).modify v.c fun c =>
          { c with ws_upgraded := true, last_server_ping_sent := sys.now }).goto
        (.sendUpgrade v caller (b :: acceptResp) r.outFrames), [])

def inbound (config : Config) (sys : Answers) (s : Server) (v : Visit) (caller : Caller)
    (buf : Bytes) : Stepped :=
  processResult sys s v caller
    (feed config.ssl config.env sys.now_seconds s.seen (s.objects v.c).ws buf)

/-- The caller goes on; stop_read_burst is c->closing. -/
def leaveInbound (s : Server) (v : Visit) : Caller → Stepped
  | .driveTlsEarlyRead =>
      if (s.objects v.c).closing then
        ((s.modify v.c fun c => { c with tls_early_read_finished := true }).goto
          (.driveTlsAccept v), [])
      else (s.goto (.driveTlsEarlyRead v), [])
  | .readLoop => (s.goto (if (s.objects v.c).closing then .writable v else .readLoop v), [])

def sendItem (s : Server) (c : ConnRef) (kind : ItemKind) (item : Bytes) (io : IoState) : Stepped :=
  ((s.modify c (·.enqueue [item])).goto io, [.enqueued c kind [item]])

def submitTask (s : Server) (c : ConnRef) (message : Message) (io : IoState) : Stepped :=
  ({ s with pool := s.pool.submit ⟨c, message⟩, io }, [.submitted c s.pool.submitted_ message])

def processFrame (sys : Answers) (s : Server) (v : Visit) (caller : Caller) (frame : WsFrame)
    (frames : List WsFrame) : Stepped :=
  let alive := s.modify v.c fun c => { c with last_ping := sys.now }
  if frame.opcode = 0x9 then
    s.whenUnlocked v.c
      (sendItem alive v.c .pong (buildPong frame.payload) (.flushIfDone v caller frames))
  else if frame.opcode = 0xA then (alive.goto (.nextFrame v caller frames), [])
  else if frame.opcode = 0x8 then
    ((s.modify v.c fun c => { c with closing := true }).goto
      (.sendClose v caller (closeCode frame.payload)), [.peerClose v.c])
  else if frame.opcode = 0x1 then
    submitTask alive v.c (.text frame.payload) (.nextFrame v caller frames)
  else if frame.opcode = 0x2 then
    submitTask alive v.c (.binary frame.payload) (.nextFrame v caller frames)
  else
    s.whenUnlocked v.c
      (sendItem s v.c .unsupported (buildTextFrame (unsupportedText frame.opcode))
        (.flushIfDone v caller frames))

def readLoop (sys : Answers) (s : Server) (v : Visit) : Stepped :=
  match sys.read with
  | .ret plain =>
      if plain = [] then s.whenUnlocked v.c ((s.closeConnection v.fd).goto (.writable v), [])
      else (s.goto (.inbound v .readLoop (plain.take kTlsReadBytes)), [])
  | .want => (s.goto (.writable v), [])
  | .error => s.whenUnlocked v.c ((s.closeConnection v.fd).goto (.writable v), [])

/-- A call of flushOutbound whose result is dropped. -/
def flushThen (sys : Answers) (s : Server) (c : ConnRef) (io : IoState) : Stepped :=
  s.whenUnlocked c ((s.sent c (s.flush sys c)).goto io, s.sslWrites c (s.flush sys c))

def closeIfDrained (s : Server) (v : Visit) (r : Flushed) : Server :=
  if r.drained && (s.objects v.c).closing then (s.sent v.c r).closeConnection v.fd
  else s.sent v.c r

def writable (sys : Answers) (s : Server) (v : Visit) : Stepped :=
  if v.e.EPOLLOUT then
    s.whenUnlocked v.c ((closeIfDrained s v (s.flush sys v.c)).goto .epollWait,
      s.sslWrites v.c (s.flush sys v.c))
  else (s.goto .epollWait, [])

def timerPing (config : Config) (s : Server) (now : TimePoint) (all : List Nat) (fd : Nat)
    (todo : List Nat) : Stepped :=
  let next := IoState.timerPing now all todo
  match s.conns.lookup fd with
  | none => (s.goto next, [])
  | some ref =>
      let c := s.objects ref
      if !c.tls_done || !c.ws_upgraded || c.closing ||
          decide (wholeSeconds (now - c.last_server_ping_sent) < config.pingIntervalSec) then
        (s.goto next, [])
      else
        s.whenUnlocked ref
          (sendItem
            (s.modify ref fun c => { c with last_server_ping_sent := now, last_ping := now })
            ref .ping (buildPing []) next)

def flushEach (sys : Answers) (s : Server) (fd : Nat) (next : IoState) : Stepped :=
  match s.conns.lookup fd with
  | none => (s.goto next, [])
  | some c =>
      if !(s.objects c).tls_done || (s.objects c).closing then (s.goto next, [])
      else flushThen sys s c next

def idle (config : Config) (s : Server) (now : TimePoint) (fd : Nat) : Bool :=
  match s.conns.lookup fd with
  | none => false
  | some c => wholeSeconds (now - (s.objects c).last_ping) > config.idleTimeoutSec

def closeEach (s : Server) (fd : Nat) (next : IoState) : Stepped :=
  match s.conns.lookup fd with
  | none => (s.goto next, [])
  | some c => s.whenUnlocked c ((s.closeConnection fd).goto next, [])

def ioStep (config : Config) (sys : Answers) (s : Server) : Stepped :=
  match s.io with
  | .epollWait => (s, [])
  | .advanceTlsHandshake v => advanceTlsHandshake s v
  | .driveTlsEarlyRead v => driveTlsEarlyRead sys s v
  | .driveTlsAccept v => driveTlsAccept sys s v
  | .handshakePending v =>
      if v.e.EPOLLOUT then flushThen sys s v.c .epollWait else (s.goto .epollWait, [])
  | .handshakeDone v => flushThen sys s v.c (.readable v)
  | .readable v =>
      (s.goto (if v.e.EPOLLIN && (s.objects v.c).tls_done then .readLoop v else .writable v), [])
  | .readLoop v => readLoop sys s v
  | .inbound v caller buf => inbound config sys s v caller buf
  | .sendUpgrade v caller acceptResp frames =>
      s.whenUnlocked v.c (sendItem s v.c .upgrade acceptResp (.flushIfDone v caller frames))
  | .nextFrame v caller [] => leaveInbound s v caller
  | .nextFrame v caller (frame :: frames) => processFrame sys s v caller frame frames
  | .sendClose v caller code =>
      s.whenUnlocked v.c (sendItem s v.c .closeReply (buildClose code) (.flushIfDone v caller []))
  | .flushIfDone v caller frames =>
      if (s.objects v.c).tls_done then flushThen sys s v.c (.nextFrame v caller frames)
      else (s.goto (.nextFrame v caller frames), [])
  | .writable v => writable sys s v
  | .timerPing now all [] => (s.goto (.flushEach all (some (now, all))), [])
  | .timerPing now all (fd :: todo) => timerPing config s now all fd todo
  | .flushEach [] none => (s.goto .epollWait, [])
  | .flushEach [] (some (now, all)) => (s.goto (.timerSweep now all), [])
  | .flushEach (fd :: todo) timer => flushEach sys s fd (.flushEach todo timer)
  | .timerSweep now all => (s.goto (.closeEach (all.filter (idle config s now))), [])
  | .closeEach (fd :: todo) => closeEach s fd (.closeEach todo)
  | .closeEach [] =>
      ({ s with
          fileManager := FileTransferManager.cleanupSessions sys.order sys.unlinkOk sys.now_seconds
            600 1024 s.fileManager
          io := .epollWait }, [])

def dispatch (s : Server) (fd : Nat) (e : Events) : Stepped :=
  match s.conns.lookup fd with
  | none => (s, [])
  | some c =>
      let tls_done := (s.objects c).tls_done
      if e.EPOLLERR || (e.EPOLLHUP || e.EPOLLRDHUP) && !e.EPOLLIN then
        s.whenUnlocked c ((s.closeConnection fd).goto .epollWait, [])
      else if (e.EPOLLIN || e.EPOLLOUT && !tls_done) && !tls_done then
        (s.goto (.advanceTlsHandshake ⟨fd, c, e⟩), [])
      else (s.goto (.readable ⟨fd, c, e⟩), [])

def addConnection (config : Config) (s : Server) (cfd : Nat) (now : TimePoint) : Server :=
  let c := { Connection.construct cfd s.nextConnId now with
    tls_early_read_finished := decide (config.max_early_data = 0) }
  { s with
    objects := Function.update s.objects s.allocated c
    allocated := s.allocated + 1
    nextConnId := s.nextConnId + 1
    conns := s.conns.insert cfd s.allocated }

/-- One accepted socket; added is false when epoll_ctl refuses it. -/
def listen (config : Config) (s : Server) (cfd : Nat) (now : TimePoint) (added : Bool) : Stepped :=
  if cfd ∈ s.conns then (s, [])
  else if added then (addConnection config s cfd now, [])
  else (((addConnection config s cfd now).closeConnection cfd).goto .epollWait, [])

/-- weak.lock() fails once nothing holds the object any more. -/
def expired (config : Config) (s : Server) (c : ConnRef) : Bool :=
  (s.conns.entries.all fun kv => kv.2 != c) && s.io.holds != some c &&
    (List.range config.workerCount).all fun w => (s.workers w).holds != some c

def workerLoop (s : Server) (w : Nat) : Stepped :=
  match s.pool.take with
  | none => (s, [])
  | some ((ticket, task), pool) => ({ s with pool }.setWorker w (.fetched ticket task), [])

/-- The body of a submitted lambda, up to its critical section. -/
def runTask (sys : FileTransferManager.SysResults) (s : Server) (w ticket : Nat) (conn : ConnRef) :
    Message → Stepped
  | .text payload =>
      (s.setWorker w (.replying ticket conn [buildTextFrame payload]),
        [.handled conn ticket (.text payload)])
  | .binary payload =>
      let r := FileTransferManager.handleClientMessage sys payload s.fileManager
      ({ s with fileManager := r.1 }.setWorker w
          (if r.2 = [] then .waiting else .replying ticket conn (r.2.map buildBinaryFrame)),
        [.handled conn ticket (.binary payload)])

/-- if (conn->closing || conn->fd < 0 || !conn->ssl) return, with outbound_mu held. -/
def checkOpen (s : Server) (w ticket : Nat) (conn : ConnRef) (frames : List Bytes) : Stepped :=
  let c := s.objects conn
  if c.closing || c.fd.isNone || !c.ssl then (s.setWorker w .waiting, [])
  else
    ((s.modify conn fun c => { c with outbound_mu := some w }).setWorker w
      (.appending ticket conn frames), [])

def pushReplies (s : Server) (w ticket : Nat) (conn : ConnRef) (frames : List Bytes) : Stepped :=
  ((s.modify conn fun c => { c.enqueue frames with outbound_mu := none }).setWorker w
      (.notifying conn),
    [.enqueued conn (.reply ticket) frames])

def workerStep (config : Config) (sys : FileTransferManager.SysResults) (s : Server) (w : Nat) :
    Stepped :=
  match s.workers w with
  | .waiting => workerLoop s w
  | .fetched ticket task =>
      (s.setWorker w (if expired config s task.weak then .waiting else .locked ticket task), [])
  | .locked ticket task => runTask sys s w ticket task.weak task.message
  | .replying ticket conn frames => s.whenUnlocked conn (checkOpen s w ticket conn frames)
  | .appending ticket conn frames => pushReplies s w ticket conn frames
  | .notifying _ => (s.setWorker w .waiting, [])

/-- Inputs that the thread they are for cannot take now change nothing. -/
def step (config : Config) (s : Server) : Input → Stepped
  | .io sys => ioStep config sys s
  | .worker w sys => if w < config.workerCount then workerStep config sys s w else (s, [])
  | .epoll fd e =>
      match s.io with
      | .epollWait => dispatch s fd e
      | _ => (s, [])
  | .listen cfd now added =>
      match s.io with
      | .epollWait => listen config s cfd now added
      | _ => (s, [])
  | .timer now order =>
      match s.io with
      | .epollWait =>
          if order.Perm s.conns.keys then (s.goto (.timerPing now order order), []) else (s, [])
      | _ => (s, [])
  | .wake order =>
      match s.io with
      | .epollWait =>
          if order.Perm s.conns.keys then (s.goto (.flushEach order none), []) else (s, [])
      | _ => (s, [])

def unallocated : Connection where
  fd := none
  ssl := false
  id := 0
  last_ping := 0
  last_server_ping_sent := 0

def start (disk : FileSystem Bytes) : Server where
  conns := ∅
  objects := fun _ => unallocated
  allocated := 0
  nextConnId := 1
  io := .epollWait
  pool := .empty
  workers := fun _ => .waiting
  fileManager := FileTransferManager.start disk
  seen := []
  tx_bytes_total := 0

end WssServer
