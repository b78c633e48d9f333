import WebsocketServer.Server.Frames
import WebsocketServer.Server.HttpResponder
import WebsocketServer.Server.Visits

/- The loop around epoll_wait. It returns a batch of events, and by the time an event's turn
   comes others of the batch have closed descriptors and accepted new ones. -/
namespace WssServer
open HttpResponder

/-- The descriptors that stay open for the whole run. -/
structure Descriptors where
  timer_fd : Nat
  wake_fd : Nat
  listen_fd : Nat
  http_listen_fd : Option Nat

def Descriptors.all (fds : Descriptors) : List Nat :=
  fds.timer_fd :: fds.wake_fd :: fds.listen_fd :: fds.http_listen_fd.toList

structure RunArgs where
  config : Config
  http : HttpConfig
  fds : Descriptors

/-- An entry of http_conns. The number tells it from others that had the same descriptor. -/
structure HttpEntry where
  ref : Nat
  connection : HttpConnection

inductive Registered where
  | connection (c : ConnRef)
  | http (ref : Nat)
  deriving DecidableEq

/-- An epoll_event, with what was registered under its descriptor when epoll_wait returned. -/
structure Reported where
  fd : Nat
  e : Events
  owner : Option Registered

inductive Listener where
  | tls
  | http

/-- events are those of the batch whose turn has not come yet; ended is set when an exception
    leaves the loop. -/
structure Loop where
  server : Server
  http_conns : AList fun _ : Nat => HttpEntry
  nextHttp : Nat
  events : List Reported
  accepting : Option Listener
  ended : Bool

structure DispatchAnswers where
  now : TimePoint
  order : List Nat
  http : HttpAnswers

/-- accept gives a descriptor that is not in use; added is false when epoll_ctl refuses it. -/
inductive LoopInput where
  | epoll_wait (events : List (Nat × Events))
  | next (sys : DispatchAnswers)
  | accept (cfd : Nat) (now : TimePoint) (added : Bool)
  | acceptedAll
  | io (sys : Answers)
  | worker (w : Nat) (sys : FileTransferManager.SysResults)

/-- applied says which connection an event on a client's descriptor was handed to. -/
inductive LoopObservation where
  | applied (fd : Nat) (owner : Option Registered) (found : Registered)
  | server (o : Observation)
  | logged (line : Bytes)
  deriving DecidableEq

abbrev LoopStepped := Loop × List LoopObservation

namespace Loop

/-- Both tables are keyed by the descriptor; the dispatch looks into http_conns first. -/
def registered (s : Loop) (fd : Nat) : Option Registered :=
  match s.http_conns.lookup fd with
  | some h => some (.http h.ref)
  | none => (s.server.conns.lookup fd).map .connection

def between (s : Loop) : Bool := s.server.io.waits && s.accepting.isNone && !s.ended

def inUse (args : RunArgs) (s : Loop) (fd : Nat) : Bool :=
  args.fds.all.contains fd || s.server.conns.keys.contains fd || s.http_conns.keys.contains fd

def serve (s : Loop) (r : Stepped) : LoopStepped := ({ s with server := r.1 }, r.2.map .server)

/-- closeHttpConnection, the entry as the event left it, or the end of run(). -/
def putHttp (s : Loop) (fd ref : Nat) : Outcome HttpConnection → Loop
  | .closed => { s with http_conns := s.http_conns.erase fd }
  | .kept connection => { s with http_conns := s.http_conns.insert fd ⟨ref, connection⟩ }
  | .threw => { s with ended := true }

end Loop

/-- closeConnection waits for a worker inside outbound_mu. -/
def closeWaits (s : Server) (c : ConnRef) (e : Events) : Bool :=
  (e.EPOLLERR || (e.EPOLLHUP || e.EPOLLRDHUP) && !e.EPOLLIN) && (s.objects c).outbound_mu.isSome

/-- The dispatch of one event; rest are those behind it. -/
def dispatchEvent (args : RunArgs) (sys : DispatchAnswers) (s : Loop) (ev : Reported)
    (rest : List Reported) : LoopStepped :=
  let taken := { s with events := rest }
  if ev.fd = args.fds.timer_fd then
    if sys.order.Perm s.server.conns.keys then
      taken.serve (step args.config s.server (.timer sys.now sys.order))
    else (s, [])
  else if ev.fd = args.fds.wake_fd then
    if sys.order.Perm s.server.conns.keys then
      taken.serve (step args.config s.server (.wake sys.order))
    else (s, [])
  else if some ev.fd = args.fds.http_listen_fd then ({ taken with accepting := some .http }, [])
  else
    match s.http_conns.lookup ev.fd with
    | some h =>
        let r := handleEvent args.http sys.http ev.e h.connection
        (taken.putHttp ev.fd h.ref r.connection,
          .applied ev.fd ev.owner (.http h.ref) :: r.logged.map .logged)
    | none =>
        if ev.fd = args.fds.listen_fd then ({ taken with accepting := some .tls }, [])
        else
          match s.server.conns.lookup ev.fd with
          | none => (taken, [])
          | some c =>
              if closeWaits s.server c ev.e then (s, [])
              else
                let r := taken.serve (step args.config s.server (.epoll ev.fd ev.e))
                (r.1, .applied ev.fd ev.owner (.connection c) :: r.2)

/-- One accepted socket. Where epoll_ctl refuses an HTTP socket its entry is taken out again. -/
def accept (args : RunArgs) (s : Loop) (cfd : Nat) (now : TimePoint) (added : Bool) :
    Listener → LoopStepped
  | .tls => s.serve (step args.config s.server (.listen cfd now added))
  | .http =>
      if added then
        ({ s with
            http_conns := s.http_conns.insert cfd ⟨s.nextHttp, {}⟩
            nextHttp := s.nextHttp + 1 }, [])
      else (s, [])

/-- Inputs that cannot come now change nothing. -/
def loopStep (args : RunArgs) (s : Loop) : LoopInput → LoopStepped
  | .epoll_wait events =>
      if s.between && s.events.isEmpty &&
          events.all (fun ev => args.fds.all.contains ev.1 || (s.registered ev.1).isSome) then
        ({ s with events := events.map fun ev => ⟨ev.1, ev.2, s.registered ev.1⟩ }, [])
      else (s, [])
  | .next sys =>
      match s.between, s.events with
      | true, ev :: rest => dispatchEvent args sys s ev rest
      | _, _ => (s, [])
  | .accept cfd now added =>
      match s.accepting with
      | none => (s, [])
      | some listener => if s.inUse args cfd then (s, []) else accept args s cfd now added listener
  | .acceptedAll => ({ s with accepting := none }, [])
  | .io sys => s.serve (step args.config s.server (.io sys))
  | .worker w sys => s.serve (step args.config s.server (.worker w sys))

def startLoop (disk : FileSystem Bytes) : Loop where
  server := start disk
  http_conns := ∅
  nextHttp := 0
  events := []
  accepting := none
  ended := false

inductive LoopMove (args : RunArgs) (s : Loop) : LoopInput → LoopStepped → Prop where
  | stays {i : LoopInput} : LoopMove args s i (s, [])
  | returns (events : List (Nat × Events)) :
      LoopMove args s (.epoll_wait events)
        ({ s with events := events.map fun ev => ⟨ev.1, ev.2, s.registered ev.1⟩ }, [])
  | drops {sys : DispatchAnswers} {ev : Reported} {rest : List Reported}
      (front : s.events = ev :: rest) : LoopMove args s (.next sys) ({ s with events := rest }, [])
  | listens {sys : DispatchAnswers} {ev : Reported} {rest : List Reported}
      (front : s.events = ev :: rest) (listener : Listener) :
      LoopMove args s (.next sys) ({ s with events := rest, accepting := some listener }, [])
  | signals {sys : DispatchAnswers} {ev : Reported} {rest : List Reported}
      (front : s.events = ev :: rest) {j : Input}
      (other : ∀ cfd now added, j ≠ .listen cfd now added) :
      LoopMove args s (.next sys)
        ({ s with events := rest }.serve (step args.config s.server j))
  | answers {sys : DispatchAnswers} {ev : Reported} {rest : List Reported}
      (front : s.events = ev :: rest) {h : HttpEntry} (hit : s.http_conns.lookup ev.fd = some h)
      (left : Outcome HttpConnection) (logged : List Bytes) :
      LoopMove args s (.next sys) ({ s with events := rest }.putHttp ev.fd h.ref left,
        .applied ev.fd ev.owner (.http h.ref) :: logged.map .logged)
  | applies {sys : DispatchAnswers} {ev : Reported} {rest : List Reported}
      (front : s.events = ev :: rest) (miss : s.http_conns.lookup ev.fd = none) {c : ConnRef}
      (found : s.server.conns.lookup ev.fd = some c) :
      LoopMove args s (.next sys)
        (({ s with events := rest }.serve (step args.config s.server (.epoll ev.fd ev.e))).1,
          .applied ev.fd ev.owner (.connection c) ::
            ({ s with events := rest }.serve (step args.config s.server (.epoll ev.fd ev.e))).2)
  | accepts {cfd : Nat} {now : TimePoint} {added : Bool} (accepting : s.accepting = some .tls)
      (free : s.inUse args cfd = false) :
      LoopMove args s (.accept cfd now added)
        (s.serve (step args.config s.server (.listen cfd now added)))
  | acceptsHttp {cfd : Nat} {now : TimePoint} (accepting : s.accepting = some .http)
      (free : s.inUse args cfd = false) :
      LoopMove args s (.accept cfd now true)
        ({ s with
            http_conns := s.http_conns.insert cfd ⟨s.nextHttp, {}⟩
            nextHttp := s.nextHttp + 1 }, [])
  | acceptedAll : LoopMove args s .acceptedAll ({ s with accepting := none }, [])
  | serves {i : LoopInput} {j : Input} (other : ∀ cfd now added, j ≠ .listen cfd now added) :
      LoopMove args s i (s.serve (step args.config s.server j))

theorem dispatchEvent_move {args : RunArgs} {s : Loop} (sys : DispatchAnswers) {ev : Reported}
    {rest : List Reported} (front : s.events = ev :: rest) :
    LoopMove args s (.next sys) (dispatchEvent args sys s ev rest) := by
  unfold dispatchEvent
  dsimp only
  split
  · split
    · exact .signals front (by simp)
    · exact .stays
  split
  · split
    · exact .signals front (by simp)
    · exact .stays
  split
  · exact .listens front .http
  split
  · rename_i h hit
    exact .answers front hit _ _
  rename_i miss
  split
  · exact .listens front .tls
  split
  · exact .drops front
  rename_i c found
  split
  · exact .stays
  · exact .applies front miss found

theorem loopStep_move (args : RunArgs) (s : Loop) (i : LoopInput) :
    LoopMove args s i (loopStep args s i) := by
  unfold loopStep
  cases i with
  | epoll_wait events =>
    dsimp only
    split
    · exact .returns events
    · exact .stays
  | next sys =>
    dsimp only
    split
    · rename_i front
      exact dispatchEvent_move sys front
    · exact .stays
  | accept cfd now added =>
    cases accepting : s.accepting with
    | none => exact .stays
    | some listener =>
      dsimp only
      cases free : s.inUse args cfd with
      | true => exact .stays
      | false =>
        cases listener with
        | tls => exact .accepts accepting free
        | http =>
          unfold accept
          cases added with
          | true => exact .acceptsHttp accepting free
          | false => exact .stays
  | acceptedAll => exact .acceptedAll
  | io sys => exact .serves (by simp)
  | worker w sys => exact .serves (by simp)

def Apart (s : Loop) : Prop :=
  ∀ fd h, s.http_conns.lookup fd = some h → s.server.conns.lookup fd = none

/-- Connections stay or go; new ones come under the given descriptors only. -/
structure KeepsTables (s s' : Loop) (new : Nat → Prop) : Prop where
  apart : Apart s'
  registered : ∀ fd, s'.registered fd = s.registered fd ∨ s'.registered fd = none ∨ new fd

theorem step_conns {config : Config} {s : Server} {i : Input}
    (other : ∀ cfd now added, i ≠ .listen cfd now added) (fd : Nat) :
    (step config s i).1.conns.lookup fd = s.conns.lookup fd ∨
      (step config s i).1.conns.lookup fd = none := by
  have shrinks {s' : Server} (old : ∀ c, s'.conns.lookup fd = some c → s.conns.lookup fd = some c) :
      s'.conns.lookup fd = s.conns.lookup fd ∨ s'.conns.lookup fd = none := by
    cases found : s'.conns.lookup fd with
    | none => exact Or.inr rfl
    | some c => exact Or.inl (old c found).symm
  have move := step_move config s i
  generalize step config s i = r at move ⊢
  cases move with
  | stays | shakes | reads | timer | wake => exact Or.inl rfl
  | io sys => exact shrinks ((ioStep_only config sys s).conns fd)
  | worker real sys =>
    left
    rw [(workerMove_table (workerStep_move config sys s _)).1]
  | hangup fd' e => exact shrinks ((hangup_only s fd').conns fd)
  | accepts now waits fresh => exact absurd rfl (other _ _ _)
  | refuses now waits fresh => exact absurd rfl (other _ _ _)

theorem listen_conns (config : Config) (s : Server) (cfd : Nat) (now : TimePoint) (added : Bool)
    (fd : Nat) :
    (step config s (.listen cfd now added)).1.conns.lookup fd = s.conns.lookup fd ∨
      (step config s (.listen cfd now added)).1.conns.lookup fd = none ∨ fd = cfd ∧
        added = true := by
  have move := step_move config s (.listen cfd now added)
  generalize step config s (.listen cfd now added) = r at move ⊢
  cases move with
  | stays => exact Or.inl rfl
  | accepts now waits fresh =>
    by_cases same : fd = cfd
    · exact Or.inr (Or.inr ⟨same, rfl⟩)
    · exact Or.inl (AList.lookup_insert_ne same)
  | refuses now waits fresh =>
    have old := (hangup_only (addConnection config s cfd now) cfd).conns fd
    dsimp only
    cases found : (((addConnection config s cfd now).closeConnection cfd).goto
      .epollWait).conns.lookup fd with
    | none => exact Or.inr (Or.inl rfl)
    | some c =>
      by_cases same : fd = cfd
      · rw [same] at found
        exact absurd (found.symm.trans (close_absent _ cfd)) (by simp)
      · have before := old c found
        rw [addConnection, AList.lookup_insert_ne same] at before
        exact Or.inl before.symm

section
variable {args : RunArgs} {s : Loop}

theorem keeps_same (apart : Apart s) {s' : Loop} (server : s'.server = s.server)
    (http : s'.http_conns = s.http_conns) {new : Nat → Prop} : KeepsTables s s' new := by
  constructor
  · unfold Apart
    rw [server, http]
    exact apart
  · intro fd
    left
    unfold Loop.registered
    rw [server, http]

theorem serve_keeps (apart : Apart s) {r : Stepped} {new : Nat → Prop}
    (conns : ∀ fd, r.1.conns.lookup fd = s.server.conns.lookup fd ∨ r.1.conns.lookup fd = none ∨
      new fd ∧ s.http_conns.lookup fd = none) :
    KeepsTables s (s.serve r).1 new := by
  constructor
  · intro fd h found
    rcases conns fd with same | none | ⟨_, free⟩
    · exact same.trans (apart fd h found)
    · exact none
    · rw [Loop.serve, free] at found
      contradiction
  · intro fd
    unfold Loop.registered Loop.serve
    dsimp only
    cases s.http_conns.lookup fd with
    | some h => exact Or.inl rfl
    | none =>
      rcases conns fd with same | none | ⟨fresh, _⟩
      · exact Or.inl (congrArg (Option.map Registered.connection) same)
      · exact Or.inr (Or.inl (congrArg (Option.map Registered.connection) none))
      · exact Or.inr (Or.inr fresh)

theorem step_keeps (apart : Apart s) {i : Input}
    (other : ∀ cfd now added, i ≠ .listen cfd now added)
    {new : Nat → Prop} : KeepsTables s (s.serve (step args.config s.server i)).1 new := by
  apply serve_keeps apart
  intro fd
  rcases step_conns other fd with same | none
  · exact Or.inl same
  · exact Or.inr (Or.inl none)

theorem putHttp_keeps (apart : Apart s) {fd : Nat} {h : HttpEntry}
    (found : s.http_conns.lookup fd = some h) (left : Outcome HttpConnection) {new : Nat → Prop} :
    KeepsTables s (s.putHttp fd h.ref left) new := by
  have absent := apart fd h found
  cases left with
  | threw => exact keeps_same apart (by rfl) (by rfl)
  | closed =>
    constructor
    · intro fd' h' found'
      by_cases same : fd' = fd
      · rw [same]
        exact absent
      · exact apart fd' h' ((AList.lookup_erase_ne same).symm.trans found')
    · intro fd'
      unfold Loop.registered Loop.putHttp
      dsimp only
      by_cases same : fd' = fd
      · right
        left
        rw [same, AList.lookup_erase, absent]
        rfl
      · rw [AList.lookup_erase_ne same]
        exact Or.inl rfl
  | kept connection =>
    constructor
    · intro fd' h' found'
      by_cases same : fd' = fd
      · rw [same]
        exact absent
      · exact apart fd' h' ((AList.lookup_insert_ne same).symm.trans found')
    · intro fd'
      left
      unfold Loop.registered Loop.putHttp
      dsimp only
      by_cases same : fd' = fd
      · rw [same, AList.lookup_insert, found]
      · rw [AList.lookup_insert_ne same]

theorem KeepsTables.taken {s' : Loop} {rest : List Reported} {new : Nat → Prop}
    (keeps : KeepsTables { s with events := rest } s' new) : KeepsTables s s' new :=
  ⟨keeps.apart, keeps.registered⟩

theorem inUse_false {fd : Nat} (free : s.inUse args fd = false) :
    s.server.conns.lookup fd = none ∧ s.http_conns.lookup fd = none := by
  simp only [Loop.inUse, Bool.or_eq_false_iff, List.contains_eq_mem,
    decide_eq_false_iff_not] at free
  exact ⟨AList.lookup_eq_none.mpr free.1.2, AList.lookup_eq_none.mpr free.2⟩

def AcceptsAt (s : Loop) (i : LoopInput) (fd : Nat) : Prop :=
  s.accepting.isSome = true ∧ ∃ now, i = .accept fd now true

theorem loopStep_keeps (apart : Apart s) (i : LoopInput) :
    KeepsTables s (loopStep args s i).1 (AcceptsAt s i) := by
  have behind (rest : List Reported) : Apart { s with events := rest } := apart
  have move := loopStep_move args s i
  generalize loopStep args s i = r at move ⊢
  cases move with
  | stays | returns | drops | listens | acceptedAll => exact keeps_same apart (by rfl) (by rfl)
  | @signals _ _ rest _ _ other => exact KeepsTables.taken (step_keeps (behind rest) other)
  | @answers _ _ rest _ _ hit left => exact KeepsTables.taken (putHttp_keeps (behind rest) hit left)
  | @applies _ _ rest =>
    apply KeepsTables.taken
    exact step_keeps (behind rest) (by simp)
  | @accepts cfd now added accepting free =>
    apply serve_keeps apart
    intro fd
    rcases listen_conns args.config s.server cfd now added fd with same | none | ⟨rfl, rfl⟩
    · exact Or.inl same
    · exact Or.inr (Or.inl none)
    · exact Or.inr (Or.inr ⟨⟨by rw [accepting]; rfl, now, rfl⟩, (inUse_false free).2⟩)
  | @acceptsHttp cfd now accepting free =>
    constructor
    · intro fd h found
      by_cases same : fd = cfd
      · rw [same]
        exact (inUse_false free).1
      · exact apart fd h ((AList.lookup_insert_ne same).symm.trans found)
    · intro fd
      by_cases same : fd = cfd
      · exact Or.inr (Or.inr ⟨by rw [accepting]; rfl, now, by rw [same]⟩)
      · left
        unfold Loop.registered
        dsimp only
        rw [AList.lookup_insert_ne same]
  | serves other => exact step_keeps apart other

theorem loopStep_events (i : LoopInput) :
    ∀ ev ∈ (loopStep args s i).1.events,
      ev ∈ s.events ∨ (loopStep args s i).1.registered ev.fd = ev.owner := by
  have behind {ev : Reported} {rest : List Reported} (front : s.events = ev :: rest) :
      ∀ later ∈ rest, later ∈ s.events := by
    rw [front]
    exact fun later mem => List.mem_cons_of_mem _ mem
  have move := loopStep_move args s i
  generalize loopStep args s i = r at move ⊢
  intro ev mem
  cases move with
  | stays | accepts | acceptsHttp | acceptedAll | serves => exact Or.inl mem
  | returns events =>
    obtain ⟨reported, _, rfl⟩ := List.mem_map.mp mem
    exact Or.inr rfl
  | drops front | listens front | signals front | applies front =>
    exact Or.inl (behind front ev mem)
  | answers front hit left =>
    left
    cases left <;> exact behind front ev mem

theorem serve_applied {r : Stepped} {fd : Nat} {owner : Option Registered} {found : Registered} :
    .applied fd owner found ∉ (s.serve r).2 := by
  simp [Loop.serve]

/- An event is handed to whatever is registered under its descriptor when its turn comes. -/
theorem loopStep_applied (i : LoopInput) {fd : Nat} {owner : Option Registered}
    {found : Registered} (mem : .applied fd owner found ∈ (loopStep args s i).2) :
    ∃ ev ∈ s.events, ev.owner = owner ∧ s.registered ev.fd = some found := by
  have move := loopStep_move args s i
  generalize loopStep args s i = r at move mem
  cases move with
  | stays | returns | drops | listens | acceptsHttp | acceptedAll => contradiction
  | signals | accepts | serves => exact absurd mem serve_applied
  | @answers _ ev rest front h hit left logged =>
    rcases List.mem_cons.mp mem with here | logged
    · obtain ⟨rfl, rfl, rfl⟩ := LoopObservation.applied.inj here
      exact ⟨ev, by simp [front], rfl, by simp only [Loop.registered, hit]⟩
    · simp at logged
  | @applies _ ev rest front miss c known =>
    rcases List.mem_cons.mp mem with here | served
    · obtain ⟨rfl, rfl, rfl⟩ := LoopObservation.applied.inj here
      exact ⟨ev, by simp [front], rfl, by simp only [Loop.registered, miss, known, Option.map_some]⟩
    · exact absurd served serve_applied

theorem loopStep_server (i : LoopInput) :
    (loopStep args s i).1.server = s.server ∨
      ∃ j, (loopStep args s i).1.server = (step args.config s.server j).1 := by
  have move := loopStep_move args s i
  generalize loopStep args s i = r at move ⊢
  cases move with
  | stays | returns | drops | listens | acceptsHttp | acceptedAll => exact Or.inl rfl
  | signals | applies | accepts | serves => exact Or.inr ⟨_, rfl⟩
  | answers front hit left =>
    left
    cases left <;> rfl

end

/-- accept gives out the number of a descriptor whose event is still to come. -/
def reuses (s : Loop) : LoopInput → Bool
  | .accept cfd _ true => s.accepting.isSome && s.events.any (·.fd == cfd)
  | _ => false

/-- Whatever an event still to come was reported for is registered yet, or nothing is. -/
structure BatchInv (s : Loop) : Prop where
  apart : Apart s
  current : ∀ ev ∈ s.events, s.registered ev.fd = ev.owner ∨ s.registered ev.fd = none
  tls : TlsInv s.server
  visits : VisitsOwn s.server

theorem loopStep_batch {args : RunArgs} {s : Loop} (inv : BatchInv s) (i : LoopInput)
    (fresh : reuses s i = false) : BatchInv (loopStep args s i).1 := by
  have keeps : KeepsTables s (loopStep args s i).1 (AcceptsAt s i) := loopStep_keeps inv.apart i
  have server : (loopStep args s i).1.server = s.server ∨
      ∃ j, (loopStep args s i).1.server = (step args.config s.server j).1 := loopStep_server i
  refine ⟨keeps.apart, ?_, ?_, ?_⟩
  · intro ev mem
    rcases loopStep_events i ev mem with old | now
    · rcases keeps.registered ev.fd with same | none | ⟨accepting, now, rfl⟩
      · rw [same]
        exact inv.current ev old
      · exact Or.inr none
      · have pending : s.events.any (·.fd == ev.fd) = true :=
          List.any_eq_true.mpr ⟨ev, old, beq_self_eq_true ev.fd⟩
        simp [reuses, accepting, pending] at fresh
    · exact Or.inl now
  · rcases server with same | ⟨j, run⟩
    · rw [same]
      exact inv.tls
    · rw [run]
      exact step_inv inv.tls j
  · rcases server with same | ⟨j, run⟩
    · rw [same]
      exact inv.visits
    · rw [run]
      exact step_visitsOwn inv.tls inv.visits j

theorem startLoop_batch (disk : FileSystem Bytes) : BatchInv (startLoop disk) where
  apart := by simp [startLoop, Apart]
  current := by simp [startLoop]
  tls := start_tls disk
  visits := visitsOwn_ended rfl

/-- The server inside the loop reaches only states that it reaches by its own steps. -/
theorem loop_reachable (args : RunArgs) {s : Loop}
    (reachable : Run.Reachable (loopStep args) (fun s => ∃ disk, s = startLoop disk) s) :
    Reachable args.config s.server := by
  apply Run.invariant_reachable _ _ reachable
  · rintro s ⟨disk, rfl⟩
    exact ⟨start disk, [], ⟨disk, rfl⟩, rfl⟩
  · intro s i inner
    have server : (loopStep args s i).1.server = s.server ∨
        ∃ j, (loopStep args s i).1.server = (step args.config s.server j).1 := loopStep_server i
    rcases server with same | ⟨j, run⟩
    · rw [same]
      exact inner
    · rw [run]
      exact Run.Reachable.next inner j

/-- In a run where accept never gives out the number of a descriptor whose event is still to
    come, each event goes to the connection it was reported for, and as long as the IO thread
    works on it the table knows its number and that connection by one another only. -/
theorem events_act_on_reported (args : RunArgs) (disk : FileSystem Bytes) (inputs : List LoopInput)
    (fresh : ∀ t ∈ Run.steps (loopStep args) (startLoop disk) inputs,
      reuses t.before t.input = false) :
    (∀ fd owner found, .applied fd owner found ∈ Run.trace (loopStep args) (startLoop disk) inputs →
      owner = some found) ∧
    ∀ t ∈ Run.steps (loopStep args) (startLoop disk) inputs, VisitsOwn t.before.server := by
  have invariant := (Run.invariant_steps BatchInv (fun s i => reuses s i = false)
    (fun _ i inv fresh => loopStep_batch inv i fresh) (startLoop_batch disk) fresh).1
  constructor
  · intro fd owner found mem
    obtain ⟨t, taken, out⟩ := List.mem_flatMap.mp mem
    rw [(Run.steps_taken (loopStep args) taken).2] at out
    obtain ⟨ev, pending, rfl, registered⟩ := loopStep_applied t.input out
    rcases (invariant t taken).current ev pending with same | none
    · exact same.symm.trans registered
    · rw [none] at registered
      contradiction
  · exact fun t taken => (invariant t taken).visits

def plainArgs : RunArgs where
  config := plainConfig
  http := ⟨[], []⟩
  fds := ⟨1, 2, 3, none⟩

def dispatchNow (now : TimePoint) (order : List Nat) : LoopInput :=
  .next ⟨now, order, fun _ => .missing, [], []⟩

def reset : Events := { EPOLLIN := true, EPOLLERR := true, EPOLLHUP := true, EPOLLRDHUP := true }

/-- A client connects, begins the handshake and falls silent. Two minutes later one batch holds
    the timer, whose sweep closes the descriptor, a new client at the listener and the reset of
    the old one. -/
def sweptBatch : List LoopInput :=
  [.epoll_wait [(3, { EPOLLIN := true })], dispatchNow 0 [], .accept 5 0 true, .acceptedAll,
    .epoll_wait [(5, { EPOLLIN := true })], dispatchNow 0 [], .io quiet, .io quiet, .io quiet,
    .epoll_wait [(1, { EPOLLIN := true }), (3, { EPOLLIN := true }), (5, reset)],
    dispatchNow 121000000000 [5], .io quiet, .io quiet, .io quiet, .io quiet, .io quiet, .io quiet,
    .io quiet, dispatchNow 121000000000 []]

/-- The new client gets the number the sweep has set free, or another one. -/
def newClient (cfd : Nat) : List LoopInput :=
  [.accept cfd 121000000000 true, .acceptedAll, dispatchNow 121000000000 []]

theorem event_of_swept_client_dropped :
    let run := Run.steps (loopStep plainArgs) (startLoop .empty) (sweptBatch ++ newClient 6)
    (∀ fd owner found,
      .applied fd owner found ∈ Run.trace (loopStep plainArgs) (startLoop .empty)
        (sweptBatch ++ newClient 6) → owner = some found) ∧
      ∀ t ∈ run, VisitsOwn t.before.server :=
  events_act_on_reported plainArgs .empty (sweptBatch ++ newClient 6) (by decide +kernel)

theorem hangup_hits_new_client :
    ¬ ∀ (args : RunArgs) (disk : FileSystem Bytes) (inputs : List LoopInput) fd owner found,
      .applied fd owner found ∈ Run.trace (loopStep args) (startLoop disk) inputs →
        owner = some found := by
  intro claimed
  have trace : Run.trace (loopStep plainArgs) (startLoop .empty) (sweptBatch ++ newClient 5) =
      [.applied 5 (some (.connection 0)) (.connection 0),
        .applied 5 (some (.connection 0)) (.connection 1)] := by
    decide +kernel
  have same := claimed plainArgs .empty (sweptBatch ++ newClient 5) 5 (some (.connection 0))
    (.connection 1) (by rw [trace]; simp)
  exact absurd same (by decide)

end WssServer
