import WebsocketServer.Server.Streams
import WebsocketServer.Server.Visits

/- How the IO thread learns of output that waits: the edge-triggered registration of every client
   socket, and the eventfd that the workers write to behind their critical sections. -/
namespace WssServer

/-- How a call of flushOutbound ends: at its first guard, with an empty queue, or with what
    SSL_get_error says of the last write. -/
inductive FlushEnd where
  | skipped
  | drained
  | wantWrite
  | wantRead
  | fatal
  deriving DecidableEq

def FlushEnd.want_write : FlushEnd → Option Bool
  | .drained | .wantRead => some false
  | .wantWrite => some true
  | .skipped | .fatal => none

/-- The end of the loop of flushOutbound. Calls beyond the given results want to write. -/
def loopEnd (results : List WriteResult) (outbound : List OutboundItem) : FlushEnd :=
  match popSent outbound with
  | [] => .drained
  | item :: rest =>
      match results with
      | .wrote ret :: results =>
          let sent := item.advance ret
          loopEnd results (if sent.offset ≥ sent.data.length then rest else sent :: rest)
      | .wantRead :: _ => .wantRead
      | .fatal :: _ => .fatal
      | .wantWrite :: _ | [] => .wantWrite

def flushEnd (writes : List WriteResult) (c : Connection) : FlushEnd :=
  if c.fd = none ∨ c.ssl = false then .skipped
  else if c.outbound.isEmpty then .drained
  else loopEnd writes c.outbound

/-- What a worker still has to do for the replies it has pushed. -/
inductive Owed where
  | updateInterest (conn : ConnRef)
  | notifyIoThreadOutbound
  deriving DecidableEq

/-- armed says of a descriptor that its registration asks for EPOLLOUT and that no event with it
    was reported since. wakeups is the counter of the eventfd. ended is how the last flush of a
    connection ended; no step reads it. -/
structure Watched where
  server : Server
  armed : Nat → Bool
  wakeups : Nat
  owed : Nat → Option Owed
  ended : ConnRef → FlushEnd

/-- wantWrite tells WANT_WRITE from WANT_READ where the answer to a step of the IO thread is
    want. -/
inductive WatchInput where
  | server (i : Input) (wantWrite : Bool)
  | owed (w : Nat)

/-- The flush of a step of the IO thread, and how it ends. -/
def Server.flushes (s : Server) (sys : Answers) : Option (ConnRef × FlushEnd) :=
  s.flushing.bind fun c =>
    if (s.objects c).outbound_mu = none then some (c, flushEnd sys.writes (s.objects c)) else none

def Observation.pushed : Observation → Option ConnRef
  | .enqueued c _ _ => some c
  | .sslWrite _ _ | .peerClose _ | .submitted _ _ _ | .handled _ _ _ => none

/-- The call of updateInterest in a step of the IO thread: its descriptor, none once the socket is
    closed, and its want_write. A push is followed by one on the descriptor at hand. -/
def interestCall (config : Config) (sys : Answers) (wantWrite : Bool) (s : Server) :
    Option (Option Nat × Bool) :=
  let behindPush (fd : Nat) : Option (Option Nat × Bool) :=
    ((ioStep config sys s).2.findSome? Observation.pushed).map fun _ => (some fd, true)
  match s.io with
  | .driveTlsEarlyRead v =>
      match sys.early with
      | .want => some ((s.objects v.c).fd, wantWrite)
      | .success _ | .finish | .error => none
  | .driveTlsAccept v =>
      match sys.accept with
      | .done => some ((s.objects v.c).fd, false)
      | .want => some ((s.objects v.c).fd, wantWrite)
      | .error => none
  | .readLoop v =>
      match sys.read with
      | .want => if wantWrite then some (some v.fd, true) else none
      | .ret _ | .error => none
  | .sendUpgrade v _ _ _ | .nextFrame v _ _ | .sendClose v _ _ => behindPush v.fd
  | .timerPing _ _ (fd :: _) => behindPush fd
  | _ => (s.flushes sys).bind fun (c, ending) => ending.want_write.map ((s.objects c).fd, ·)

/-- EPOLL_CTL_MOD arms the registration again; a negative descriptor is left alone. -/
def updateInterest (armed : Nat → Bool) (fd : Option Nat) (want_write : Bool) : Nat → Bool :=
  match fd with
  | none => armed
  | some fd => Function.update armed fd want_write

/-- write adds one unless the counter is full. -/
def notifyIoThreadOutbound (wakeups : Nat) : Nat :=
  if wakeups < 2 ^ 64 - 2 then wakeups + 1 else wakeups

def watchIo (config : Config) (sys : Answers) (wantWrite : Bool) (p : Watched) : Watched :=
  { p with
    server := (step config p.server (.io sys)).1
    armed := match interestCall config sys wantWrite p.server with
      | none => p.armed
      | some (fd, want_write) => updateInterest p.armed fd want_write
    ended := match p.server.flushes sys with
      | none => p.ended
      | some (c, ending) => Function.update p.ended c ending }

def payOwed (p : Watched) (w : Nat) : Watched :=
  match p.owed w with
  | none => p
  | some (.updateInterest conn) =>
      { p with
        armed := updateInterest p.armed (p.server.objects conn).fd true
        owed := Function.update p.owed w (some .notifyIoThreadOutbound) }
  | some .notifyIoThreadOutbound =>
      { p with
        wakeups := notifyIoThreadOutbound p.wakeups
        owed := Function.update p.owed w none }

/-- A worker comes back for the next task behind what it owes. An event with EPOLLOUT disarms, the
    eventfd is read until it is empty, and EPOLL_CTL_ADD registers a new client without EPOLLOUT. -/
def watchStep (config : Config) (p : Watched) : WatchInput → Watched × List Observation
  | .owed w => (payOwed p w, [])
  | .server (.io sys) wantWrite =>
      (watchIo config sys wantWrite p, (step config p.server (.io sys)).2)
  | .server (.worker w sys) _ =>
      if (p.owed w).isSome then (p, [])
      else
        let r := step config p.server (.worker w sys)
        ({ p with
            server := r.1
            owed := Function.update p.owed w
              ((r.2.findSome? Observation.pushed).map .updateInterest) }, r.2)
  | .server (.epoll fd e) _ =>
      let r := step config p.server (.epoll fd e)
      ({ p with
          server := r.1
          armed := if e.EPOLLOUT && p.server.io.waits && !r.1.io.waits then
              updateInterest p.armed (some fd) false
            else p.armed }, r.2)
  | .server (.listen cfd now added) _ =>
      let r := step config p.server (.listen cfd now added)
      ({ p with
          server := r.1
          armed :=
            if cfd ∈ p.server.conns then p.armed
            else updateInterest p.armed (some cfd) false }, r.2)
  | .server (.wake order) _ =>
      if p.wakeups = 0 then (p, [])
      else
        let r := step config p.server (.wake order)
        ({ p with
            server := r.1
            wakeups := if p.server.io.waits && !r.1.io.waits then 0 else p.wakeups }, r.2)
  | .server (.timer now order) _ =>
      let r := step config p.server (.timer now order)
      ({ p with server := r.1 }, r.2)

def served (p : Watched) : WatchInput → List Input
  | .owed _ => []
  | .server (.worker w sys) _ => if (p.owed w).isSome then [] else [.worker w sys]
  | .server (.wake order) _ => if p.wakeups = 0 then [] else [.wake order]
  | .server i _ => [i]

theorem watched_contains (config : Config) :
    Run.Contains (watchStep config) (step config) served Watched.server := by
  intro p i
  cases i with
  | owed w =>
    simp only [watchStep, served, payOwed]
    split <;> rfl
  | server i wantWrite =>
    cases i with
    | worker w sys =>
      simp only [watchStep, served]
      split <;> rfl
    | wake order =>
      simp only [watchStep, served]
      split <;> rfl
    | io | epoll | listen | timer => rfl

def startWatched (disk : FileSystem Bytes) : Watched where
  server := start disk
  armed := fun _ => false
  wakeups := 0
  owed := fun _ => none
  ended := fun _ => .drained

end WssServer
