import WebsocketServer.Library.Run
import WebsocketServer.Server.Workers

/- SSL_write and the TLS handshake: which of the calls of flushOutbound can come too early. -/
namespace WssServer

def Connection.tls (c : Connection) : Bool × Option Nat × Bool := (c.tls_done, c.fd, c.ssl)

def Shaking (c : Connection) : Prop := c.tls_done = false ∧ c.Live

/-- What the IO thread knows about the connection it works on. Early data is read before the
    handshake is done, SSL_read runs after it, and an event with EPOLLOUT does not get past the
    handshake before it is done. -/
def IoTls (objects : ConnRef → Connection) : IoState → Prop
  | .advanceTlsHandshake v | .driveTlsEarlyRead v | .driveTlsAccept v | .handshakePending v =>
      Shaking (objects v.c)
  | .handshakeDone v | .readLoop v => (objects v.c).tls_done = true
  | .readable v | .writable v => v.e.EPOLLOUT = true → (objects v.c).tls_done = true
  | .inbound v caller _ | .sendUpgrade v caller _ _ | .nextFrame v caller _
  | .sendClose v caller _ | .flushIfDone v caller _ =>
      match caller with
      | .driveTlsEarlyRead => Shaking (objects v.c)
      | .readLoop => (objects v.c).tls_done = true
  | .epollWait | .timerPing _ _ _ | .flushEach _ _ | .timerSweep _ _ | .closeEach _ => True

structure TlsInv (s : Server) : Prop where
  allocated : ∀ fd c, s.conns.lookup fd = some c → c < s.allocated
  live : ∀ fd c, s.conns.lookup fd = some c → (s.objects c).fd = some fd ∧ (s.objects c).ssl = true
  io : IoTls s.objects s.io

structure SameTls (s s' : Server) : Prop where
  conns : s'.conns = s.conns
  allocated : s'.allocated = s.allocated
  tls : ∀ c, (s'.objects c).tls = (s.objects c).tls

theorem tls_fields {c c' : Connection} (same : c'.tls = c.tls) :
    c'.tls_done = c.tls_done ∧ c'.fd = c.fd ∧ c'.ssl = c.ssl := by
  simpa [Connection.tls] using same

theorem shaking_same {c c' : Connection} (same : c'.tls = c.tls) (shaking : Shaking c) :
    Shaking c' := by
  obtain ⟨done, fd, ssl⟩ := tls_fields same
  unfold Shaking Connection.Live
  rw [done, fd, ssl]
  exact shaking

theorem ioTls_same {objects objects' : ConnRef → Connection}
    (same : ∀ c, (objects' c).tls = (objects c).tls) {io : IoState} (holds : IoTls objects io) :
    IoTls objects' io := by
  have done (c : ConnRef) : (objects' c).tls_done = (objects c).tls_done := (tls_fields (same c)).1
  cases io with
  | advanceTlsHandshake v | driveTlsEarlyRead v | driveTlsAccept v | handshakePending v =>
    exact shaking_same (same v.c) holds
  | handshakeDone v | readLoop v => exact (done v.c).trans holds
  | readable v | writable v => exact fun out => (done v.c).trans (holds out)
  | inbound v caller _ | sendUpgrade v caller _ _ | nextFrame v caller _ | sendClose v caller _
  | flushIfDone v caller _ =>
    cases caller with
    | driveTlsEarlyRead => exact shaking_same (same v.c) holds
    | readLoop => exact (done v.c).trans holds
  | epollWait | timerPing | flushEach | timerSweep | closeEach => trivial

theorem TlsInv.same {s s' : Server} (inv : TlsInv s) (same : SameTls s s')
    (io : IoTls s.objects s'.io) : TlsInv s' where
  allocated := by
    intro fd c found
    rw [same.conns] at found
    rw [same.allocated]
    exact inv.allocated fd c found
  live := by
    intro fd c found
    rw [same.conns] at found
    obtain ⟨_, here, ssl⟩ := tls_fields (same.tls c)
    rw [here, ssl]
    exact inv.live fd c found
  io := ioTls_same same.tls io

theorem same_goto (s : Server) (io : IoState) : SameTls s (s.goto io) := ⟨rfl, rfl, fun _ => rfl⟩

theorem same_modify (s : Server) (c : ConnRef) (f : Connection → Connection)
    (keeps : (f (s.objects c)).tls = (s.objects c).tls) : SameTls s (s.modify c f) :=
  ⟨rfl, rfl, s.modify_keeps c f Connection.tls keeps⟩

theorem same_takeParser (s : Server) (c : ConnRef) (r : StreamParser.FeedResult) :
    SameTls s (takeParser s c r) :=
  ⟨rfl, rfl, s.modify_keeps c (fun conn => { conn with ws := r.parser }) Connection.tls rfl⟩

theorem same_sent (s : Server) (c : ConnRef) (r : Flushed) : SameTls s (s.sent c r) :=
  ⟨rfl, rfl, s.modify_keeps c (fun conn => { conn with outbound := r.outbound }) Connection.tls rfl⟩

theorem TlsInv.goto {s : Server} (inv : TlsInv s) {io : IoState} (next : IoTls s.objects io) :
    TlsInv (s.goto io) :=
  inv.same (same_goto s io) next

theorem TlsInv.modify {s : Server} (inv : TlsInv s) {c : ConnRef} {f : Connection → Connection}
    {io : IoState} (keeps : (f (s.objects c)).tls = (s.objects c).tls)
    (next : IoTls s.objects io) : TlsInv ((s.modify c f).goto io) :=
  have same := same_modify s c f keeps
  inv.same ⟨rfl, rfl, same.tls⟩ next

/- Closing a connection takes it out of the table before its descriptor goes. -/
theorem TlsInv.close {s : Server} (inv : TlsInv s) (fd : Nat) {io : IoState}
    (next : IoTls (s.closeConnection fd).objects io) : TlsInv ((s.closeConnection fd).goto io) := by
  have other {fd' : Nat} {c : ConnRef} := @Server.lookup_closed s fd fd' c
  rcases s.closeConnection_cases fd with ⟨_, run⟩ | ⟨ref, found, run⟩
  · rw [run] at next ⊢
    exact inv.goto next
  · rw [run] at next other ⊢
    refine ⟨?_, ?_, next⟩
    · intro fd' c here
      exact inv.allocated fd' c (other here).2
    · intro fd' c here
      obtain ⟨different, there⟩ := other here
      have live := inv.live fd' c there
      have apart : c ≠ ref := by
        rintro rfl
        have closed := (inv.live fd c found).1
        rw [live.1] at closed
        exact different (Option.some.inj closed)
      simp only [Server.goto_objects, Server.modify_objects, if_neg apart]
      exact live

theorem Next.tls {config : Config} {s : Server} {at' io : IoState} (next : Next config s at' io)
    (known : IoTls s.objects at') : IoTls s.objects io := by
  cases next with
  | handshaken done => exact done
  | reads readable done => exact done
  | readAll => exact fun _ => known
  | stopsReading closing => exact fun _ => known
  | pinged | skipsPing | skipsFlush | flushed | flushedTimer | sweeps | skipsClose | pending _
  | unwritable _ => trivial
  | _ => exact known

theorem close_tls_done (s : Server) (fd : Nat) (c : ConnRef) :
    ((s.closeConnection fd).objects c).tls_done = (s.objects c).tls_done :=
  s.close_keeps fd Connection.tls_done (fun _ => rfl) c

theorem Closes.tls {s : Server} {at' io : IoState} {fd : Nat} (site : Closes at' fd io)
    (known : IoTls s.objects at') : IoTls (s.closeConnection fd).objects io := by
  cases site with
  | earlyRead | accept | idle => trivial
  | @read v => exact fun _ => (close_tls_done s v.fd v.c).trans known

theorem LeavesBroken.tls {s s' : Server} {v : Visit} {caller : Caller} {io : IoState} {buf : Bytes}
    (left : LeavesBroken v caller io) (same : SameTls s s')
    (known : IoTls s.objects (.inbound v caller buf)) :
    IoTls (s'.closeConnection v.fd).objects io := by
  cases left with
  | early => trivial
  | read =>
    intro _
    rw [close_tls_done, (tls_fields (same.tls v.c)).1]
    exact known

theorem Flushes.tls {s : Server} {at' io : IoState} {c : ConnRef} (site : Flushes s at' c io)
    (known : IoTls s.objects at') : IoTls s.objects io := by
  cases site with
  | pending | writable | each => trivial
  | handshaken => exact fun _ => known
  | pushed done => exact known

theorem Pushes.tls {sys : Answers} {s : Server} {at' io : IoState} {s' : Server} {c : ConnRef}
    {kind : ItemKind} {item : Bytes} (site : Pushes sys s at' s' c kind item io)
    (known : IoTls s.objects at') : IoTls s.objects io := by
  cases site with
  | ping => trivial
  | _ => exact known

theorem Pushes.same {sys : Answers} {s : Server} {at' io : IoState} {s' : Server} {c : ConnRef}
    {kind : ItemKind} {item : Bytes} (site : Pushes sys s at' s' c kind item io) :
    SameTls s s' := by
  cases site with
  | upgrade | unsupported | closeReply => exact ⟨rfl, rfl, fun _ => rfl⟩
  | pong | ping => exact same_modify s _ _ rfl

/- Every step of the IO thread keeps the invariant. -/
section
variable {config : Config} {sys : Answers} {s : Server} {v : Visit} (inv : TlsInv s)
include inv

theorem accepted_inv :
    TlsInv ((s.modify v.c fun c => { c with tls_done := true }).goto (.handshakeDone v)) := by
  constructor
  · exact inv.allocated
  · intro fd c found
    have live := inv.live fd c found
    have same := s.modify_keeps v.c (fun c => { c with tls_done := true })
      (fun c => (c.fd, c.ssl)) rfl c
    simp only [Prod.mk.injEq] at same
    rw [← same.1, ← same.2] at live
    exact live
  · simp only [Server.goto_io, Server.goto_objects, IoTls, Server.modify_self]

theorem ioMove_inv {r : Stepped} (move : IoMove config sys s r) : TlsInv r.1 := by
  have at' {io : IoState} (here : s.io = io) : IoTls s.objects io := here ▸ inv.io
  cases move with
  | stays => exact inv
  | goes next => exact inv.goto (next.tls inv.io)
  | closes site => exact inv.close _ (site.tls inv.io)
  | flushes site unlocked => exact inv.same ⟨rfl, rfl, (same_sent s _ _).tls⟩ (site.tls inv.io)
  | drains site out closing => exact (inv.same (same_sent s _ _) inv.io).close _ trivial
  | @earlyDone v site =>
    rcases site with here | here
    · have known := at' here
      exact inv.modify rfl known
    · have known := at' here
      exact inv.modify rfl known
  | accepted => exact accepted_inv inv
  | @throws v caller buf what io here left thrown =>
    have fed := same_takeParser s v.c (s.fed config sys v buf)
    exact (inv.same fed inv.io).close _ (left.tls fed (at' here))
  | delivers here returns response =>
    have known := at' here
    exact (inv.same (same_takeParser s _ _) inv.io).goto
      (ioTls_same (same_takeParser s _ _).tls known)
  | upgrades here returns response =>
    have known := at' here
    exact (inv.same (same_takeParser s _ _) inv.io).modify rfl
      (ioTls_same (same_takeParser s _ _).tls known)
  | @pushes s' c kind item io site unlocked =>
    have same := site.same
    have pushed := same_modify s' c (·.enqueue [item]) rfl
    exact inv.same ⟨same.conns, same.allocated, fun c' => (pushed.tls c').trans (same.tls c')⟩
      (site.tls inv.io)
  | ponged here =>
    have known := at' here
    exact inv.modify rfl known
  | peerCloses here close =>
    have known := at' here
    exact inv.modify rfl known
  | @submits v caller frame frames message here same =>
    have known := at' here
    have alive := same_modify s v.c (fun c => { c with last_ping := sys.now }) rfl
    exact inv.same ⟨rfl, rfl, alive.tls⟩ known
  | cleans here => exact inv.same ⟨rfl, rfl, fun _ => rfl⟩ trivial

theorem addConnection_inv {cfd : Nat} {now : TimePoint} (fresh : cfd ∉ s.conns)
    (io : s.io = .epollWait) : TlsInv (addConnection config s cfd now) := by
  have cases {fd : Nat} {c : ConnRef}
      (found : (s.conns.insert cfd s.allocated).lookup fd = some c) :
      (fd = cfd ∧ c = s.allocated) ∨ (fd ≠ cfd ∧ s.conns.lookup fd = some c) := by
    by_cases same : fd = cfd
    · rw [same, AList.lookup_insert] at found
      exact Or.inl ⟨same, (Option.some.inj found).symm⟩
    · rw [AList.lookup_insert_ne same] at found
      exact Or.inr ⟨same, found⟩
  refine ⟨?_, ?_, by simp only [addConnection, io, IoTls]⟩
  · intro fd c found
    rcases cases found with ⟨_, rfl⟩ | ⟨_, old⟩
    · exact Nat.lt_succ_self _
    · exact Nat.lt_succ_of_lt (inv.allocated fd c old)
  · intro fd c found
    rcases cases found with ⟨rfl, rfl⟩ | ⟨_, old⟩
    · simp [addConnection, Connection.construct]
    · have older : c ≠ s.allocated := Nat.ne_of_lt (inv.allocated fd c old)
      rw [addConnection_other older]
      exact inv.live fd c old

end

theorem workerMove_same {config : Config} {s : Server} {w : Nat} {r : Stepped}
    (move : WorkerMove config s w r) : SameTls s r.1 ∧ r.1.io = s.io := by
  cases move with
  | enters ready unlocked open' =>
    exact ⟨⟨rfl, rfl, (same_modify s _ (fun c => { c with outbound_mu := some w }) rfl).tls⟩, rfl⟩
  | pushes inside =>
    exact ⟨⟨rfl, rfl,
      (same_modify s _ (fun c => { c.enqueue _ with outbound_mu := none }) rfl).tls⟩, rfl⟩
  | _ => exact ⟨⟨rfl, rfl, fun _ => rfl⟩, rfl⟩

theorem step_inv {config : Config} {s : Server} (inv : TlsInv s) (i : Input) :
    TlsInv (step config s i).1 := by
  have move := step_move config s i
  generalize step config s i = r at move ⊢
  cases move with
  | stays => exact inv
  | io sys => exact ioMove_inv inv (ioStep_move config sys s)
  | @worker w real sys =>
    obtain ⟨same, io⟩ := workerMove_same (workerStep_move config sys s w)
    exact inv.same same (io ▸ inv.io)
  | hangup fd e => exact inv.close fd trivial
  | @shakes fd c e found undone =>
    obtain ⟨here, ssl⟩ := inv.live fd c found
    exact inv.goto ⟨undone, by simp [here], ssl⟩
  | reads e found done => exact inv.goto done
  | accepts now waits fresh => exact addConnection_inv inv fresh waits
  | refuses now waits fresh => exact (addConnection_inv inv fresh waits).close _ trivial
  | timer now order => exact inv.goto trivial
  | wake order => exact inv.goto trivial

theorem start_tls (disk : FileSystem Bytes) : TlsInv (start disk) := by
  refine ⟨?_, ?_, trivial⟩
  · intro fd c found
    simp [start] at found
  · intro fd c found
    simp [start] at found

end WssServer
