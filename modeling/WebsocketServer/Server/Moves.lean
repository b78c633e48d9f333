import WebsocketServer.Server.Steps

/- Everything a step of the server can be. A step of the IO thread depends on where it stands;
   the relations below say so site by site, with the tests that lead there. -/
namespace WssServer
open StreamParser WebSocketCodec

/-- The IO thread goes on and touches nothing. -/
inductive Next (config : Config) (s : Server) : IoState → IoState → Prop where
  | handshaken {v : Visit} (done : (s.objects v.c).tls_done = true) :
      Next config s (.advanceTlsHandshake v) (.handshakeDone v)
  | readsEarly {v : Visit} : Next config s (.advanceTlsHandshake v) (.driveTlsEarlyRead v)
  | skipsEarly {v : Visit} : Next config s (.advanceTlsHandshake v) (.driveTlsAccept v)
  | gotEarly {v : Visit} (plain : Bytes) : Next config s (.driveTlsEarlyRead v)
      (.inbound v .driveTlsEarlyRead (plain.take kTlsReadBytes))
  | awaitsEarly {v : Visit} : Next config s (.driveTlsEarlyRead v) (.handshakePending v)
  | awaitsAccept {v : Visit} : Next config s (.driveTlsAccept v) (.handshakePending v)
  | pending {v : Visit} (unwritable : v.e.EPOLLOUT = false) :
      Next config s (.handshakePending v) .epollWait
  | reads {v : Visit} (readable : v.e.EPOLLIN = true) (done : (s.objects v.c).tls_done = true) :
      Next config s (.readable v) (.readLoop v)
  | unreadable {v : Visit} : Next config s (.readable v) (.writable v)
  | got {v : Visit} (plain : Bytes) :
      Next config s (.readLoop v) (.inbound v .readLoop (plain.take kTlsReadBytes))
  | readAll {v : Visit} : Next config s (.readLoop v) (.writable v)
  | readsOnEarly {v : Visit} (open' : (s.objects v.c).closing = false) :
      Next config s (.nextFrame v .driveTlsEarlyRead []) (.driveTlsEarlyRead v)
  | readsOn {v : Visit} (open' : (s.objects v.c).closing = false) :
      Next config s (.nextFrame v .readLoop []) (.readLoop v)
  | stopsReading {v : Visit} (closing : (s.objects v.c).closing = true) :
      Next config s (.nextFrame v .readLoop []) (.writable v)
  | keepsOutput {v : Visit} {caller : Caller} {frames : List WsFrame}
      (undone : (s.objects v.c).tls_done = false) :
      Next config s (.flushIfDone v caller frames) (.nextFrame v caller frames)
  | unwritable {v : Visit} (unwritable : v.e.EPOLLOUT = false) :
      Next config s (.writable v) .epollWait
  | skipsPing {now : TimePoint} {all : List Nat} {fd : Nat} {todo : List Nat} :
      Next config s (.timerPing now all (fd :: todo)) (.timerPing now all todo)
  | pinged {now : TimePoint} {all : List Nat} :
      Next config s (.timerPing now all []) (.flushEach all (some (now, all)))
  | skipsFlush {fd : Nat} {todo : List Nat} {timer : Option (TimePoint × List Nat)} :
      Next config s (.flushEach (fd :: todo) timer) (.flushEach todo timer)
  | flushed : Next config s (.flushEach [] none) .epollWait
  | flushedTimer {now : TimePoint} {all : List Nat} :
      Next config s (.flushEach [] (some (now, all))) (.timerSweep now all)
  | sweeps {now : TimePoint} {all : List Nat} :
      Next config s (.timerSweep now all) (.closeEach (all.filter (idle config s now)))
  | skipsClose {fd : Nat} {todo : List Nat} :
      Next config s (.closeEach (fd :: todo)) (.closeEach todo)

inductive Closes : IoState → Nat → IoState → Prop where
  | earlyRead {v : Visit} : Closes (.driveTlsEarlyRead v) v.fd .epollWait
  | accept {v : Visit} : Closes (.driveTlsAccept v) v.fd .epollWait
  | read {v : Visit} : Closes (.readLoop v) v.fd (.writable v)
  | idle {fd : Nat} {todo : List Nat} : Closes (.closeEach (fd :: todo)) fd (.closeEach todo)

inductive Flushes (s : Server) : IoState → ConnRef → IoState → Prop where
  | pending {v : Visit} (out : v.e.EPOLLOUT = true) :
      Flushes s (.handshakePending v) v.c .epollWait
  | handshaken {v : Visit} : Flushes s (.handshakeDone v) v.c (.readable v)
  | pushed {v : Visit} {caller : Caller} {frames : List WsFrame}
      (done : (s.objects v.c).tls_done = true) :
      Flushes s (.flushIfDone v caller frames) v.c (.nextFrame v caller frames)
  | writable {v : Visit} (out : v.e.EPOLLOUT = true) : Flushes s (.writable v) v.c .epollWait
  | each {fd : Nat} {todo : List Nat} {timer : Option (TimePoint × List Nat)} {c : ConnRef}
      (found : s.conns.lookup fd = some c) (done : (s.objects c).tls_done = true)
      (open' : (s.objects c).closing = false) :
      Flushes s (.flushEach (fd :: todo) timer) c (.flushEach todo timer)

/-- What the IO thread pushes to an outbound queue, after the update of the time stamps. -/
inductive Pushes (sys : Answers) (s : Server) :
    IoState → Server → ConnRef → ItemKind → Bytes → IoState → Prop where
  | upgrade {v : Visit} {caller : Caller} {acceptResp : Bytes} {frames : List WsFrame} :
      Pushes sys s (.sendUpgrade v caller acceptResp frames) s v.c .upgrade acceptResp
        (.flushIfDone v caller frames)
  | pong {v : Visit} {caller : Caller} {frame : WsFrame} {frames : List WsFrame}
      (ping : frame.opcode = 0x9) :
      Pushes sys s (.nextFrame v caller (frame :: frames))
        (s.modify v.c fun c => { c with last_ping := sys.now }) v.c .pong
        (buildPong frame.payload) (.flushIfDone v caller frames)
  | unsupported {v : Visit} {caller : Caller} {frame : WsFrame} {frames : List WsFrame}
      (ping : frame.opcode ≠ 0x9) (pong : frame.opcode ≠ 0xA) (close : frame.opcode ≠ 0x8)
      (text : frame.opcode ≠ 0x1) (binary : frame.opcode ≠ 0x2) :
      Pushes sys s (.nextFrame v caller (frame :: frames)) s v.c .unsupported
        (buildTextFrame (unsupportedText frame.opcode)) (.flushIfDone v caller frames)
  | closeReply {v : Visit} {caller : Caller} {code : UInt16} :
      Pushes sys s (.sendClose v caller code) s v.c .closeReply (buildClose code)
        (.flushIfDone v caller [])
  | ping {now : TimePoint} {all : List Nat} {fd : Nat} {todo : List Nat} {ref : ConnRef}
      (found : s.conns.lookup fd = some ref) (done : (s.objects ref).tls_done = true)
      (upgraded : (s.objects ref).ws_upgraded = true) (open' : (s.objects ref).closing = false) :
      Pushes sys s (.timerPing now all (fd :: todo))
        (s.modify ref fun c => { c with last_server_ping_sent := now, last_ping := now }) ref .ping
        (buildPing []) (.timerPing now all todo)

def Server.fed (config : Config) (sys : Answers) (s : Server) (v : Visit) (buf : Bytes) :
    FeedResult :=
  feed config.ssl config.env sys.now_seconds s.seen (s.objects v.c).ws buf

/-- Where the IO thread goes on after a throw of the parser. -/
inductive LeavesBroken (v : Visit) : Caller → IoState → Prop where
  | early : LeavesBroken v .driveTlsEarlyRead .epollWait
  | read : LeavesBroken v .readLoop (.writable v)

inductive IoMove (config : Config) (sys : Answers) (s : Server) : Stepped → Prop where
  | stays : IoMove config sys s (s, [])
  | goes {io : IoState} (next : Next config s s.io io) : IoMove config sys s (s.goto io, [])
  | closes {fd : Nat} {io : IoState} (site : Closes s.io fd io) :
      IoMove config sys s ((s.closeConnection fd).goto io, [])
  | flushes {c : ConnRef} {io : IoState} (site : Flushes s s.io c io)
      (unlocked : (s.objects c).outbound_mu = none) :
      IoMove config sys s ((s.sent c (s.flush sys c)).goto io, s.sslWrites c (s.flush sys c))
  | drains {v : Visit} (site : s.io = .writable v) (out : v.e.EPOLLOUT = true)
      (closing : (s.objects v.c).closing = true) :
      IoMove config sys s (((s.sent v.c (s.flush sys v.c)).closeConnection v.fd).goto .epollWait,
        s.sslWrites v.c (s.flush sys v.c))
  | earlyDone {v : Visit}
      (site : s.io = .driveTlsEarlyRead v ∨ s.io = .nextFrame v .driveTlsEarlyRead []) :
      IoMove config sys s
        ((s.modify v.c fun c => { c with tls_early_read_finished := true }).goto
          (.driveTlsAccept v), [])
  | accepted {v : Visit} (site : s.io = .driveTlsAccept v) :
      IoMove config sys s
        ((s.modify v.c fun c => { c with tls_done := true }).goto (.handshakeDone v), [])
  | throws {v : Visit} {caller : Caller} {buf : Bytes} {what : String} {io : IoState}
      (site : s.io = .inbound v caller buf) (left : LeavesBroken v caller io)
      (thrown : (s.fed config sys v buf).thrown = some what) :
      IoMove config sys s
        (((takeParser s v.c (s.fed config sys v buf)).closeConnection v.fd).goto io, [])
  | delivers {v : Visit} {caller : Caller} {buf : Bytes} (site : s.io = .inbound v caller buf)
      (returns : (s.fed config sys v buf).thrown = none)
      (response : (s.fed config sys v buf).outAcceptResponse = []) :
      IoMove config sys s
        ((takeParser s v.c (s.fed config sys v buf)).goto
          (.nextFrame v caller (s.fed config sys v buf).outFrames), [])
  | upgrades {v : Visit} {caller : Caller} {buf : Bytes} (site : s.io = .inbound v caller buf)
      (returns : (s.fed config sys v buf).thrown = none)
      (response : (s.fed config sys v buf).outAcceptResponse ≠ []) :
      IoMove config sys s
        (((takeParser s v.c (s.fed config sys v buf)).modify v.c fun c =>
            { c with ws_upgraded := true, last_server_ping_sent := sys.now }).goto
          (.sendUpgrade v caller (s.fed config sys v buf).outAcceptResponse
            (s.fed config sys v buf).outFrames), [])
  | pushes {s' : Server} {c : ConnRef} {kind : ItemKind} {item : Bytes} {io : IoState}
      (site : Pushes sys s s.io s' c kind item io)
      (unlocked : (s.objects c).outbound_mu = none) :
      IoMove config sys s (sendItem s' c kind item io)
  | ponged {v : Visit} {caller : Caller} {frame : WsFrame} {frames : List WsFrame}
      (site : s.io = .nextFrame v caller (frame :: frames)) :
      IoMove config sys s
        ((s.modify v.c fun c => { c with last_ping := sys.now }).goto (.nextFrame v caller frames),
          [])
  | peerCloses {v : Visit} {caller : Caller} {frame : WsFrame} {frames : List WsFrame}
      (site : s.io = .nextFrame v caller (frame :: frames)) (close : frame.opcode = 0x8) :
      IoMove config sys s
        ((s.modify v.c fun c => { c with closing := true }).goto
          (.sendClose v caller (closeCode frame.payload)), [.peerClose v.c])
  | submits {v : Visit} {caller : Caller} {frame : WsFrame} {frames : List WsFrame}
      {message : Message} (site : s.io = .nextFrame v caller (frame :: frames))
      (same : frame.opcode = 0x1 ∧ message = .text frame.payload ∨
        frame.opcode = 0x2 ∧ message = .binary frame.payload) :
      IoMove config sys s
        (submitTask (s.modify v.c fun c => { c with last_ping := sys.now }) v.c message
          (.nextFrame v caller frames))
  | cleans (site : s.io = .closeEach []) :
      IoMove config sys s
        ({ s with
            fileManager := FileTransferManager.cleanupSessions sys.order sys.unlinkOk
              sys.now_seconds 600 1024 s.fileManager
            io := .epollWait }, [])

section
variable {config : Config} {sys : Answers} {s : Server}

theorem IoMove.unlocked {c : ConnRef} {r : Stepped}
    (move : (s.objects c).outbound_mu = none → IoMove config sys s r) :
    IoMove config sys s (s.whenUnlocked c r) := by
  rcases s.whenUnlocked_cases c r with ⟨unlocked, run⟩ | ⟨_, run⟩
  · rw [run]
    exact move unlocked
  · rw [run]
    exact .stays

theorem IoMove.moves {at' io : IoState} (here : s.io = at') (next : Next config s at' io) :
    IoMove config sys s (s.goto io, []) :=
  .goes (here ▸ next)

theorem IoMove.closing {at' io : IoState} {c : ConnRef} {fd : Nat} (here : s.io = at')
    (site : Closes at' fd io) :
    IoMove config sys s (s.whenUnlocked c ((s.closeConnection fd).goto io, [])) :=
  .unlocked fun _ => .closes (here ▸ site)

theorem IoMove.flushing {at' io : IoState} {c : ConnRef} (here : s.io = at')
    (site : Flushes s at' c io) : IoMove config sys s (flushThen sys s c io) :=
  .unlocked fun unlocked => .flushes (here ▸ site) unlocked

theorem IoMove.pushing {at' io : IoState} {s' : Server} {c : ConnRef} {kind : ItemKind}
    {item : Bytes} (here : s.io = at') (site : Pushes sys s at' s' c kind item io) :
    IoMove config sys s (s.whenUnlocked c (sendItem s' c kind item io)) :=
  .unlocked fun unlocked => .pushes (here ▸ site) unlocked

section
variable {v : Visit}

theorem advanceTlsHandshake_move (here : s.io = .advanceTlsHandshake v) :
    IoMove config sys s (advanceTlsHandshake s v) := by
  unfold advanceTlsHandshake
  by_cases done : (s.objects v.c).tls_done = true
  · simp only [if_pos done]
    exact .moves here (.handshaken done)
  · simp only [if_neg done]
    by_cases early : (s.objects v.c).tls_early_read_finished = false
    · rw [if_pos early]
      exact .moves here .readsEarly
    · rw [if_neg early]
      exact .moves here .skipsEarly

theorem driveTlsEarlyRead_move (here : s.io = .driveTlsEarlyRead v) :
    IoMove config sys s (driveTlsEarlyRead sys s v) := by
  unfold driveTlsEarlyRead
  cases sys.early with
  | success plain =>
    by_cases none : plain = []
    · simp only [if_pos none]
      exact .stays
    · simp only [if_neg none]
      exact .moves here (.gotEarly plain)
  | finish => exact .earlyDone (Or.inl here)
  | want => exact .moves here .awaitsEarly
  | error => exact .closing here .earlyRead

theorem driveTlsAccept_move (here : s.io = .driveTlsAccept v) :
    IoMove config sys s (driveTlsAccept sys s v) := by
  unfold driveTlsAccept
  cases sys.accept with
  | done => exact .accepted here
  | want => exact .moves here .awaitsAccept
  | error => exact .closing here .accept

theorem readLoop_move (here : s.io = .readLoop v) : IoMove config sys s (readLoop sys s v) := by
  unfold readLoop
  cases sys.read with
  | ret plain =>
    by_cases none : plain = []
    · simp only [if_pos none]
      exact .closing here .read
    · simp only [if_neg none]
      exact .moves here (.got plain)
  | want => exact .moves here .readAll
  | error => exact .closing here .read

theorem leaveInbound_move {caller : Caller} (here : s.io = .nextFrame v caller []) :
    IoMove config sys s (leaveInbound s v caller) := by
  cases caller with
  | driveTlsEarlyRead =>
    unfold leaveInbound
    by_cases closing : (s.objects v.c).closing = true
    · rw [if_pos closing]
      exact .earlyDone (Or.inr here)
    · rw [if_neg closing]
      exact .moves here (.readsOnEarly (Bool.not_eq_true _ ▸ closing))
  | readLoop =>
    unfold leaveInbound
    by_cases closing : (s.objects v.c).closing = true
    · simp only [if_pos closing]
      exact .moves here (.stopsReading closing)
    · simp only [if_neg closing]
      exact .moves here (.readsOn (Bool.not_eq_true _ ▸ closing))

theorem inbound_move {caller : Caller} {buf : Bytes} (here : s.io = .inbound v caller buf) :
    IoMove config sys s (inbound config sys s v caller buf) := by
  have feeds : inbound config sys s v caller buf =
      processResult sys s v caller (s.fed config sys v buf) := rfl
  rw [feeds]
  unfold processResult
  cases thrown : (s.fed config sys v buf).thrown with
  | some what =>
    apply IoMove.unlocked
    intro _
    cases caller with
    | driveTlsEarlyRead => exact .throws here .early thrown
    | readLoop => exact .throws here .read thrown
  | none =>
    cases response : (s.fed config sys v buf).outAcceptResponse with
    | nil => exact .delivers here thrown response
    | cons b acceptResp =>
      dsimp only
      rw [← response]
      exact .upgrades here thrown (by simp [response])

theorem processFrame_move {caller : Caller} {frame : WsFrame} {frames : List WsFrame}
    (here : s.io = .nextFrame v caller (frame :: frames)) :
    IoMove config sys s (processFrame sys s v caller frame frames) := by
  unfold processFrame
  dsimp only
  by_cases ping : frame.opcode = 0x9
  · rw [if_pos ping]
    exact .pushing here (.pong ping)
  rw [if_neg ping]
  by_cases pong : frame.opcode = 0xA
  · rw [if_pos pong]
    exact .ponged here
  rw [if_neg pong]
  by_cases close : frame.opcode = 0x8
  · rw [if_pos close]
    exact .peerCloses here close
  rw [if_neg close]
  by_cases text : frame.opcode = 0x1
  · rw [if_pos text]
    exact .submits here (Or.inl ⟨text, rfl⟩)
  rw [if_neg text]
  by_cases binary : frame.opcode = 0x2
  · rw [if_pos binary]
    exact .submits here (Or.inr ⟨binary, rfl⟩)
  · rw [if_neg binary]
    exact .pushing here (.unsupported ping pong close text binary)

theorem writable_move (here : s.io = .writable v) : IoMove config sys s (writable sys s v) := by
  unfold writable
  by_cases out : v.e.EPOLLOUT = true
  · rw [if_pos out]
    apply IoMove.unlocked
    intro unlocked
    unfold closeIfDrained
    by_cases drained : ((s.flush sys v.c).drained && (s.objects v.c).closing) = true
    · rw [if_pos drained]
      exact .drains here out (Bool.and_eq_true _ _ ▸ drained).2
    · rw [if_neg drained]
      exact .flushes (here ▸ .writable out) unlocked
  · rw [if_neg out]
    exact .moves here (.unwritable (Bool.not_eq_true _ ▸ out))

theorem timerPing_cases (config : Config) (s : Server) (now : TimePoint) (all : List Nat)
    (fd : Nat) (todo : List Nat) :
    ((∀ c, s.conns.lookup fd = some c → (s.objects c).tls_done = true →
        (s.objects c).ws_upgraded = true → (s.objects c).closing = false →
        wholeSeconds (now - (s.objects c).last_server_ping_sent) < config.pingIntervalSec) ∧
      timerPing config s now all fd todo = (s.goto (.timerPing now all todo), [])) ∨
    ∃ c, s.conns.lookup fd = some c ∧ (s.objects c).tls_done = true ∧
      (s.objects c).ws_upgraded = true ∧ (s.objects c).closing = false ∧
      timerPing config s now all fd todo = s.whenUnlocked c
        (sendItem (s.modify c fun c => { c with last_server_ping_sent := now, last_ping := now })
          c .ping (buildPing []) (.timerPing now all todo)) := by
  unfold timerPing
  cases found : s.conns.lookup fd with
  | none =>
    left
    refine ⟨?_, rfl⟩
    intro c other
    contradiction
  | some ref =>
    dsimp only
    by_cases skip : (!(s.objects ref).tls_done || !(s.objects ref).ws_upgraded ||
        (s.objects ref).closing || decide (wholeSeconds
          (now - (s.objects ref).last_server_ping_sent) < config.pingIntervalSec)) = true
    · left
      rw [if_pos skip]
      refine ⟨?_, rfl⟩
      intro c same done upgraded open'
      obtain rfl := Option.some.inj same
      simpa only [done, upgraded, open', Bool.not_true, Bool.or_self, Bool.false_or,
        decide_eq_true_eq] using skip
    · right
      rw [if_neg skip]
      simp only [Bool.or_eq_true, not_or, Bool.not_eq_true, Bool.not_eq_false'] at skip
      exact ⟨ref, rfl, skip.1.1.1, skip.1.1.2, skip.1.2, rfl⟩

theorem timerPing_move {now : TimePoint} {all : List Nat} {fd : Nat} {todo : List Nat}
    (here : s.io = .timerPing now all (fd :: todo)) :
    IoMove config sys s (timerPing config s now all fd todo) := by
  rcases timerPing_cases config s now all fd todo with
    ⟨_, run⟩ | ⟨c, found, done, upgraded, open', run⟩
  · rw [run]
    exact .moves here .skipsPing
  · rw [run]
    exact .pushing here (.ping found done upgraded open')

theorem flushEach_move {fd : Nat} {todo : List Nat} {timer : Option (TimePoint × List Nat)}
    (here : s.io = .flushEach (fd :: todo) timer) :
    IoMove config sys s (flushEach sys s fd (.flushEach todo timer)) := by
  unfold flushEach
  cases found : s.conns.lookup fd with
  | none => exact .moves here .skipsFlush
  | some c =>
    dsimp only
    by_cases skip : (!(s.objects c).tls_done || (s.objects c).closing) = true
    · rw [if_pos skip]
      exact .moves here .skipsFlush
    · rw [if_neg skip]
      simp only [Bool.or_eq_true, not_or, Bool.not_eq_true, Bool.not_eq_false'] at skip
      exact .flushing here (.each found skip.1 skip.2)

end

theorem ioStep_move (config : Config) (sys : Answers) (s : Server) :
    IoMove config sys s (ioStep config sys s) := by
  unfold ioStep
  cases here : s.io with
  | epollWait => exact .stays
  | advanceTlsHandshake v => exact advanceTlsHandshake_move here
  | driveTlsEarlyRead v => exact driveTlsEarlyRead_move here
  | driveTlsAccept v => exact driveTlsAccept_move here
  | handshakePending v =>
    by_cases out : v.e.EPOLLOUT = true
    · simp only [if_pos out]
      exact .flushing here (.pending out)
    · simp only [if_neg out]
      exact .moves here (.pending (Bool.not_eq_true _ ▸ out))
  | handshakeDone v => exact .flushing here .handshaken
  | readable v =>
    by_cases reads : (v.e.EPOLLIN && (s.objects v.c).tls_done) = true
    · simp only [if_pos reads]
      rw [Bool.and_eq_true] at reads
      exact .moves here (.reads reads.1 reads.2)
    · simp only [if_neg reads]
      exact .moves here .unreadable
  | readLoop v => exact readLoop_move here
  | inbound v caller buf => exact inbound_move here
  | sendUpgrade v caller acceptResp frames => exact .pushing here .upgrade
  | nextFrame v caller frames =>
    cases frames with
    | nil => exact leaveInbound_move here
    | cons frame frames => exact processFrame_move here
  | sendClose v caller code => exact .pushing here .closeReply
  | flushIfDone v caller frames =>
    by_cases done : (s.objects v.c).tls_done = true
    · simp only [if_pos done]
      exact .flushing here (.pushed done)
    · simp only [if_neg done]
      exact .moves here (.keepsOutput (Bool.not_eq_true _ ▸ done))
  | writable v => exact writable_move here
  | timerPing now all todo =>
    cases todo with
    | nil => exact .moves here .pinged
    | cons fd todo => exact timerPing_move here
  | flushEach todo timer =>
    cases todo with
    | nil =>
      cases timer with
      | none => exact .moves here .flushed
      | some timer => exact .moves here .flushedTimer
    | cons fd todo => exact flushEach_move here
  | timerSweep now all => exact .moves here .sweeps
  | closeEach todo =>
    cases todo with
    | nil => exact .cleans here
    | cons fd todo =>
      dsimp only
      unfold closeEach
      cases s.conns.lookup fd with
      | none => exact .moves here .skipsClose
      | some c => exact .closing here .idle

end

/-- The moves of the server: a thread takes its step, or the waiting IO thread takes an event. -/
inductive Move (config : Config) (s : Server) : Input → Stepped → Prop where
  | stays {i : Input} (other : ∀ sys, i ≠ .io sys) : Move config s i (s, [])
  | io (sys : Answers) : Move config s (.io sys) (ioStep config sys s)
  | worker {w : Nat} (real : w < config.workerCount) (sys : FileTransferManager.SysResults) :
      Move config s (.worker w sys) (workerStep config sys s w)
  | hangup (fd : Nat) (e : Events) :
      Move config s (.epoll fd e) ((s.closeConnection fd).goto .epollWait, [])
  | shakes {fd : Nat} {c : ConnRef} (e : Events) (found : s.conns.lookup fd = some c)
      (undone : (s.objects c).tls_done = false) :
      Move config s (.epoll fd e) (s.goto (.advanceTlsHandshake ⟨fd, c, e⟩), [])
  | reads {fd : Nat} {c : ConnRef} (e : Events) (found : s.conns.lookup fd = some c)
      (done : e.EPOLLOUT = true → (s.objects c).tls_done = true) :
      Move config s (.epoll fd e) (s.goto (.readable ⟨fd, c, e⟩), [])
  | accepts {cfd : Nat} (now : TimePoint) (waits : s.io = .epollWait) (fresh : cfd ∉ s.conns) :
      Move config s (.listen cfd now true) (addConnection config s cfd now, [])
  | refuses {cfd : Nat} (now : TimePoint) (waits : s.io = .epollWait) (fresh : cfd ∉ s.conns) :
      Move config s (.listen cfd now false)
        (((addConnection config s cfd now).closeConnection cfd).goto .epollWait, [])
  | timer (now : TimePoint) (order : List Nat) :
      Move config s (.timer now order) (s.goto (.timerPing now order order), [])
  | wake (order : List Nat) : Move config s (.wake order) (s.goto (.flushEach order none), [])

theorem dispatch_move (config : Config) (s : Server) (fd : Nat) (e : Events) :
    Move config s (.epoll fd e) (dispatch s fd e) := by
  unfold dispatch
  cases found : s.conns.lookup fd with
  | none => exact .stays (by simp)
  | some c =>
    dsimp only
    by_cases gone : (e.EPOLLERR || (e.EPOLLHUP || e.EPOLLRDHUP) && !e.EPOLLIN) = true
    · rw [if_pos gone]
      exact Server.whenUnlocked_either (P := Move config s (.epoll fd e)) (.stays (by simp))
        (.hangup fd e)
    rw [if_neg gone]
    by_cases shaking : ((e.EPOLLIN || e.EPOLLOUT && !(s.objects c).tls_done) &&
        !(s.objects c).tls_done) = true
    · rw [if_pos shaking]
      simp only [Bool.and_eq_true, Bool.not_eq_true'] at shaking
      exact .shakes e found shaking.2
    · rw [if_neg shaking]
      apply Move.reads e found
      intro out
      by_contra undone
      simp only [Bool.not_eq_true] at undone
      simp [out, undone] at shaking

theorem listen_move {config : Config} {s : Server} (waits : s.io = .epollWait) (cfd : Nat)
    (now : TimePoint) (added : Bool) :
    Move config s (.listen cfd now added) (listen config s cfd now added) := by
  unfold listen
  by_cases taken : cfd ∈ s.conns
  · rw [if_pos taken]
    exact .stays (by simp)
  · rw [if_neg taken]
    cases added with
    | true => exact .accepts now waits taken
    | false => exact .refuses now waits taken

theorem step_move (config : Config) (s : Server) (i : Input) :
    Move config s i (step config s i) := by
  unfold step
  cases i with
  | io sys => exact .io sys
  | worker w sys =>
    by_cases real : w < config.workerCount
    · simp only [if_pos real]
      exact .worker real sys
    · simp only [if_neg real]
      exact .stays (by simp)
  | epoll fd e =>
    cases s.io with
    | epollWait => exact dispatch_move config s fd e
    | _ => exact .stays (by simp)
  | listen cfd now added =>
    cases waits : s.io with
    | epollWait => exact listen_move waits cfd now added
    | _ => exact .stays (by simp)
  | timer now order =>
    cases s.io with
    | epollWait =>
      by_cases all : order.Perm s.conns.keys
      · simp only [if_pos all]
        exact .timer now order
      · simp only [if_neg all]
        exact .stays (by simp)
    | _ => exact .stays (by simp)
  | wake order =>
    cases s.io with
    | epollWait =>
      by_cases all : order.Perm s.conns.keys
      · simp only [if_pos all]
        exact .wake order
      · simp only [if_neg all]
        exact .stays (by simp)
    | _ => exact .stays (by simp)

end WssServer
