import WebsocketServer.Server.Handshake

/- One pass of the IO thread over an event stays with the connection it began with. -/
namespace WssServer

def IoState.visit : IoState → Option Visit
  | .advanceTlsHandshake v | .driveTlsEarlyRead v | .driveTlsAccept v | .handshakePending v
  | .handshakeDone v | .readable v | .readLoop v | .inbound v _ _ | .sendUpgrade v _ _ _
  | .nextFrame v _ _ | .sendClose v _ _ | .flushIfDone v _ _ | .writable v => some v
  | .epollWait | .timerPing _ _ _ | .flushEach _ _ | .timerSweep _ _ | .closeEach _ => none

def IoState.waits : IoState → Bool
  | .epollWait => true
  | _ => false

def IoState.reads : IoState → Bool
  | .advanceTlsHandshake _ | .driveTlsEarlyRead _ | .driveTlsAccept _ | .handshakeDone _
  | .readable _ | .readLoop _ | .inbound _ _ _ | .sendUpgrade _ _ _ _ | .nextFrame _ _ _
  | .sendClose _ _ _ | .flushIfDone _ _ _ => true
  | .handshakePending _ | .writable _ | .epollWait | .timerPing _ _ _ | .flushEach _ _
  | .timerSweep _ _ | .closeEach _ => false

/-- The pass goes on or comes to an end, and does not take up reading again. -/
def Continues (at' io : IoState) : Prop :=
  ∀ v, io.visit = some v → at'.visit = some v ∧ (io.reads = true → at'.reads = true)

theorem continues_ended {at' io : IoState} (ended : io.visit = none) : Continues at' io := by
  intro v held
  rw [ended] at held
  contradiction

theorem continues_refl (io : IoState) : Continues io io := fun _ held => ⟨held, id⟩

section
variable {config : Config} {sys : Answers} {s : Server} {at' io : IoState}

theorem Next.continues (next : Next config s at' io) : Continues at' io := by
  intro v held
  cases next with
  | awaitsEarly | awaitsAccept | unreadable | readAll | stopsReading =>
    exact ⟨held, fun reads => nomatch reads⟩
  | pending | unwritable | skipsPing | pinged | skipsFlush | flushed | flushedTimer | sweeps
  | skipsClose => cases held
  | _ => exact ⟨held, id⟩

theorem Closes.continues {fd : Nat} (site : Closes at' fd io) : Continues at' io := by
  cases site with
  | read => exact fun _ held => ⟨held, fun reads => nomatch reads⟩
  | earlyRead | accept | idle => exact continues_ended rfl

theorem Flushes.continues {c : ConnRef} (site : Flushes s at' c io) : Continues at' io := by
  cases site with
  | handshaken | pushed => exact fun _ held => ⟨held, id⟩
  | pending | writable | each => exact continues_ended rfl

theorem Pushes.continues {s' : Server} {c : ConnRef} {kind : ItemKind} {item : Bytes}
    (site : Pushes sys s at' s' c kind item io) : Continues at' io := by
  cases site with
  | ping => exact continues_ended rfl
  | _ => exact fun _ held => ⟨held, id⟩

theorem LeavesBroken.continues {v : Visit} {caller : Caller} {buf : Bytes}
    (left : LeavesBroken v caller io) : Continues (.inbound v caller buf) io := by
  cases left with
  | early => exact continues_ended rfl
  | read => exact fun _ held => ⟨held, fun reads => nomatch reads⟩

theorem LeavesBroken.reads {v : Visit} {caller : Caller} {io : IoState}
    (left : LeavesBroken v caller io) : io.reads = false := by
  cases left <;> rfl

theorem ioMove_continues {r : Stepped} (move : IoMove config sys s r) :
    Continues s.io r.1.io := by
  have visits {at' io : IoState} (here : s.io = at') (next : Continues at' io) :
      Continues s.io io := here ▸ next
  cases move with
  | stays => exact continues_refl s.io
  | goes next => exact next.continues
  | closes site => exact site.continues
  | flushes site unlocked => exact site.continues
  | pushes site unlocked => exact site.continues
  | throws here left thrown => exact visits here left.continues
  | earlyDone site =>
    rcases site with here | here
    · exact visits here fun _ held => ⟨held, id⟩
    · exact visits here fun _ held => ⟨held, id⟩
  | accepted here | delivers here | upgrades here | ponged here | peerCloses here
  | submits here => exact visits here fun _ held => ⟨held, id⟩
  | drains | cleans => exact continues_ended rfl

end

theorem close_absent (s : Server) (fd : Nat) : (s.closeConnection fd).conns.lookup fd = none := by
  rcases s.closeConnection_cases fd with ⟨none, run⟩ | ⟨ref, _, run⟩
  · rw [run]
    exact none
  · rw [run]
    exact AList.lookup_erase ..

/-- The table knows the number of the event at hand and its connection by one another only. -/
def VisitsOwn (s : Server) : Prop :=
  ∀ v, s.io.visit = some v → ∀ fd c, s.conns.lookup fd = some c → (fd = v.fd ↔ c = v.c)

theorem visitsOwn_ended {s : Server} (ended : s.io.visit = none) : VisitsOwn s := by
  intro v held
  rw [ended] at held
  contradiction

theorem visitsOwn_begins {s : Server} (tls : TlsInv s) {fd : Nat} {c : ConnRef} {e : Events}
    {io : IoState} (found : s.conns.lookup fd = some c) (begins : io.visit = some ⟨fd, c, e⟩) :
    VisitsOwn (s.goto io) := by
  intro v held fd' c' found'
  obtain rfl := Option.some.inj (begins.symm.trans held)
  constructor
  · rintro rfl
    exact Option.some.inj (found'.symm.trans found)
  · rintro rfl
    have own := (tls.live fd c' found).1
    have other := (tls.live fd' c' found').1
    exact Option.some.inj (other.symm.trans own)

theorem step_visitsOwn {config : Config} {s : Server} (tls : TlsInv s) (own : VisitsOwn s)
    (i : Input) : VisitsOwn (step config s i).1 := by
  have move := step_move config s i
  generalize step config s i = r at move ⊢
  cases move with
  | stays => exact own
  | io sys =>
    have only := ioStep_only config sys s
    intro v held fd c found
    exact own v (ioMove_continues (ioStep_move config sys s) v held).1 fd c (only.conns fd c found)
  | worker real sys =>
    obtain ⟨conns, io, _⟩ := workerMove_table (workerStep_move config sys s _)
    unfold VisitsOwn
    rw [conns, io]
    exact own
  | shakes e found undone => exact visitsOwn_begins tls found rfl
  | reads e found done => exact visitsOwn_begins tls found rfl
  | accepts now waits fresh =>
    apply visitsOwn_ended
    simp only [addConnection, waits, IoState.visit]
  | hangup | refuses | timer | wake => exact visitsOwn_ended rfl

end WssServer
