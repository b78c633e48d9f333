import WebsocketServer.Library.Simulation
import WebsocketServer.Library.Trace
import WebsocketServer.Server.WireStream

/- The bytes of every connection on their way out: what the threads pushed, what SSL_write has
   accepted of it, and what is left in the queue. -/
namespace WssServer
open Upgrade

/-- The connection that the IO thread is about to call flushOutbound for. -/
def Server.flushing (s : Server) : Option ConnRef :=
  match s.io with
  | .handshakePending v | .writable v => if v.e.EPOLLOUT then some v.c else none
  | .handshakeDone v => some v.c
  | .flushIfDone v _ _ => if (s.objects v.c).tls_done then some v.c else none
  | .flushEach (fd :: _) _ =>
      (s.conns.lookup fd).filter fun c => (s.objects c).tls_done && !(s.objects c).closing
  | _ => none

/-- The bytes SSL_write accepts in a step, and for which connection. -/
def transmission (s : Server) : Input → Option (ConnRef × Bytes)
  | .io sys => s.flushing.bind fun c =>
      if (s.objects c).outbound_mu = none then some (c, (s.flush sys c).accepted) else none
  | .epoll _ _ | .listen _ _ _ | .timer _ _ | .wake _ | .worker _ _ => none

abbrev ServerTaken := Run.Taken Server Input (List Observation)

def ServerTaken.transmission (t : ServerTaken) : Option (ConnRef × Bytes) :=
  WssServer.transmission t.before t.input

def transmitted (c : ConnRef) (past : List ServerTaken) : Bytes :=
  (Trace.of ServerTaken.transmission c past).flatten

def transmittedBytes (past : List ServerTaken) : Bytes :=
  (past.filterMap ServerTaken.transmission).flatMap Prod.snd

def observed (past : List ServerTaken) : List Observation := past.flatMap fun t => t.output

section
variable {config : Config} {sys : Answers} {s : Server} {c : ConnRef}

theorem Flushes.flushing {io : IoState} (site : Flushes s s.io c io) : s.flushing = some c := by
  generalize here : s.io = at' at site
  unfold Server.flushing
  rw [here]
  cases site with
  | pending out => exact if_pos out
  | handshaken => rfl
  | pushed done => exact if_pos done
  | writable out => exact if_pos out
  | each found done open' =>
    dsimp only
    rw [found]
    simp [Option.filter, done, open']

/- What flushOutbound left behind, and nothing else, in the queues and in the counter. -/
structure FlushedBy (s : Server) (c : ConnRef) (r : Flushed) (s' : Server) : Prop where
  queues : ∀ c', (s'.objects c').outbound =
    if c' = c then r.outbound else (s.objects c').outbound
  total : s'.tx_bytes_total = r.tx_bytes_total

theorem sent_flushed (s : Server) (c : ConnRef) (r : Flushed) : FlushedBy s c r (s.sent c r) := by
  refine ⟨?_, rfl⟩
  intro c'
  simp only [Server.sent, Server.modify_objects]
  split <;> rfl

theorem FlushedBy.closed {r : Flushed} {s' : Server} (flushed : FlushedBy s c r s') (fd : Nat) :
    FlushedBy s c r (s'.closeConnection fd) := by
  constructor
  · intro c'
    rw [s'.close_keeps fd Connection.outbound (fun _ => rfl) c']
    exact flushed.queues c'
  · rcases s'.closeConnection_cases fd with ⟨_, run⟩ | ⟨ref, _, run⟩
    · rw [run]
      exact flushed.total
    · rw [run]
      exact flushed.total

theorem FlushedBy.goto {r : Flushed} {s' : Server} (flushed : FlushedBy s c r s') (io : IoState) :
    FlushedBy s c r (s'.goto io) :=
  ⟨flushed.queues, flushed.total⟩

/- Where the IO thread flushes, it may only close the connection besides. -/
theorem ioStep_flushes (config : Config) (sys : Answers) (flushing : s.flushing = some c) :
    ∃ after, FlushedBy s c (s.flush sys c) after ∧
      ioStep config sys s = s.whenUnlocked c (after, s.sslWrites c (s.flush sys c)) := by
  have sent := sent_flushed s c (s.flush sys c)
  have flushes (io : IoState) (run : ioStep config sys s = flushThen sys s c io) :
      ∃ after, FlushedBy s c (s.flush sys c) after ∧
        ioStep config sys s = s.whenUnlocked c (after, s.sslWrites c (s.flush sys c)) :=
    ⟨_, sent.goto io, run⟩
  unfold Server.flushing at flushing
  cases here : s.io with
  | handshakePending v =>
    simp only [here] at flushing
    by_cases out : v.e.EPOLLOUT = true
    · rw [if_pos out] at flushing
      obtain rfl := Option.some.inj flushing
      apply flushes .epollWait
      unfold ioStep
      simp only [here, if_pos out]
    · rw [if_neg out] at flushing
      contradiction
  | handshakeDone v =>
    simp only [here] at flushing
    obtain rfl := Option.some.inj flushing
    apply flushes (.readable v)
    unfold ioStep
    rw [here]
  | flushIfDone v caller frames =>
    simp only [here] at flushing
    by_cases done : (s.objects v.c).tls_done = true
    · rw [if_pos done] at flushing
      obtain rfl := Option.some.inj flushing
      apply flushes (.nextFrame v caller frames)
      unfold ioStep
      simp only [here, if_pos done]
    · rw [if_neg done] at flushing
      contradiction
  | writable v =>
    simp only [here] at flushing
    by_cases out : v.e.EPOLLOUT = true
    · rw [if_pos out] at flushing
      obtain rfl := Option.some.inj flushing
      have run : ioStep config sys s = s.whenUnlocked v.c
          ((closeIfDrained s v (s.flush sys v.c)).goto .epollWait,
            s.sslWrites v.c (s.flush sys v.c)) := by
        unfold ioStep
        simp only [here, writable, if_pos out]
      refine ⟨_, ?_, run⟩
      unfold closeIfDrained
      split
      · exact (sent.closed v.fd).goto _
      · exact sent.goto _
    · rw [if_neg out] at flushing
      contradiction
  | flushEach todo timer =>
    cases todo with
    | nil => simp [here] at flushing
    | cons fd todo =>
      simp only [here, Option.filter_eq_some_iff, Bool.and_eq_true, Bool.not_eq_true'] at flushing
      obtain ⟨found, done, open'⟩ := flushing
      apply flushes (.flushEach todo timer)
      unfold ioStep
      simp [here, flushEach, found, done, open']
  | _ => simp [here] at flushing

structure SameQueues (s : Server) (r : Stepped) : Prop where
  total : r.1.tx_bytes_total = s.tx_bytes_total
  queues : ∀ c, (r.1.objects c).outbound = (s.objects c).outbound
  silent : ∀ o ∈ r.2, ∀ c, o.items c = []

/-- The queue of every connection holds what is pushed besides what it held. -/
structure Enqueues (s : Server) (r : Stepped) : Prop where
  total : r.1.tx_bytes_total = s.tx_bytes_total
  queues : ∀ c, unsent (s.objects c).outbound ++ (wire c r.2).flatten =
    unsent (r.1.objects c).outbound

theorem SameQueues.enqueues {r : Stepped} (same : SameQueues s r) : Enqueues s r := by
  refine ⟨same.total, ?_⟩
  intro c
  rw [wire_silent fun o mem => same.silent o mem c, same.queues, List.flatten_nil, List.append_nil]

theorem SameQueues.closed {s' : Server} (same : SameQueues s (s', [])) (fd : Nat) (io : IoState) :
    SameQueues s ((s'.closeConnection fd).goto io, []) := by
  refine ⟨?_, ?_, by simp⟩
  · rcases s'.closeConnection_cases fd with ⟨_, run⟩ | ⟨ref, _, run⟩
    · rw [run]
      exact same.total
    · rw [run]
      exact same.total
  · intro c
    rw [Server.goto_objects, s'.close_keeps fd Connection.outbound (fun _ => rfl) c]
    exact same.queues c

theorem sameQueues_modify (ref : ConnRef) {f : Connection → Connection} {io : IoState}
    {out : List Observation} (keeps : (f (s.objects ref)).outbound = (s.objects ref).outbound)
    (silent : ∀ o ∈ out, ∀ c, o.items c = []) : SameQueues s ((s.modify ref f).goto io, out) :=
  ⟨rfl, s.modify_keeps ref f Connection.outbound keeps, silent⟩

theorem sameQueues_refl (s : Server) : SameQueues s (s, []) :=
  ⟨rfl, fun _ => rfl, by simp⟩

theorem taken_queues (s : Server) (ref : ConnRef) (r : StreamParser.FeedResult) (c : ConnRef) :
    ((takeParser s ref r).objects c).outbound = (s.objects c).outbound :=
  s.modify_keeps ref (fun conn => { conn with ws := r.parser }) Connection.outbound rfl c

theorem Pushes.queues {s' : Server} {at' io : IoState} {kind : ItemKind} {item : Bytes}
    (site : Pushes sys s at' s' c kind item io) :
    s'.tx_bytes_total = s.tx_bytes_total ∧
      ∀ other, (s'.objects other).outbound = (s.objects other).outbound := by
  cases site with
  | upgrade | unsupported | closeReply => exact ⟨rfl, fun _ => rfl⟩
  | pong | ping => exact ⟨rfl, s.modify_keeps _ _ Connection.outbound rfl⟩

theorem enqueues_push {s₁ s' : Server} {ref : ConnRef} {conn : Connection} {kind : ItemKind}
    {items : List Bytes} (before : SameQueues s (s₁, []))
    (total : s'.tx_bytes_total = s₁.tx_bytes_total)
    (objects : s'.objects = Function.update s₁.objects ref conn)
    (pushes : conn.outbound = ((s₁.objects ref).enqueue items).outbound) :
    Enqueues s (s', [.enqueued ref kind items]) := by
  refine ⟨total.trans before.total, ?_⟩
  intro c
  have held := before.queues c
  rw [wire_pushed, objects, Function.update_apply, ← held]
  by_cases same : c = ref
  · rw [if_pos same, if_pos same.symm, pushes, same, unsent_enqueue]
  · rw [if_neg same, if_neg (Ne.symm same), List.flatten_nil, List.append_nil]

theorem ioMove_unflushed {r : Stepped} (move : IoMove config sys s r) (none : s.flushing = none) :
    Enqueues s r := by
  cases move with
  | stays => exact (sameQueues_refl s).enqueues
  | goes next =>
    apply SameQueues.enqueues
    exact ⟨rfl, fun _ => rfl, by simp⟩
  | closes site => exact ((sameQueues_refl s).closed _ _).enqueues
  | flushes site unlocked =>
    rw [site.flushing] at none
    contradiction
  | drains here out closing => simp [Server.flushing, here, out] at none
  | earlyDone | accepted | ponged =>
    apply SameQueues.enqueues
    exact sameQueues_modify _ rfl (by simp)
  | @throws v caller buf what io here left thrown =>
    have taken : SameQueues s (takeParser s v.c (s.fed config sys v buf), []) :=
      ⟨rfl, taken_queues s v.c _, by simp⟩
    exact (taken.closed v.fd io).enqueues
  | @delivers v caller buf here returns response =>
    apply SameQueues.enqueues
    exact ⟨rfl, taken_queues s v.c _, by simp⟩
  | @upgrades v caller buf here returns response =>
    apply SameQueues.enqueues
    refine ⟨rfl, ?_, by simp⟩
    intro c
    rw [Server.goto_objects, (takeParser s v.c _).modify_keeps v.c _ Connection.outbound rfl c]
    exact taken_queues s v.c _ c
  | @pushes s' c kind item io site unlocked =>
    obtain ⟨total, queues⟩ := site.queues
    exact enqueues_push ⟨total, queues, by simp⟩ rfl rfl rfl
  | peerCloses here close =>
    apply SameQueues.enqueues
    exact sameQueues_modify _ rfl (by simp [Observation.items])
  | @submits v caller frame frames message here same =>
    apply SameQueues.enqueues
    refine ⟨rfl, ?_, by simp [submitTask, Observation.items]⟩
    exact s.modify_keeps v.c (fun c => { c with last_ping := sys.now }) Connection.outbound rfl
  | cleans here =>
    apply SameQueues.enqueues
    exact ⟨rfl, fun _ => rfl, by simp⟩

theorem workerMove_enqueues {w : Nat} {r : Stepped} (move : WorkerMove config s w r) :
    Enqueues s r := by
  cases move with
  | pushes inside => exact enqueues_push (sameQueues_refl s) rfl rfl rfl
  | handles =>
    apply SameQueues.enqueues
    exact ⟨rfl, fun _ => rfl, by simp [Observation.items]⟩
  | @enters ticket conn frames ready unlocked open' =>
    apply SameQueues.enqueues
    refine ⟨rfl, ?_, by simp⟩
    exact s.modify_keeps conn (fun c => { c with outbound_mu := some w }) Connection.outbound rfl
  | stays | takes | drops | locks | refuses | returns =>
    apply SameQueues.enqueues
    exact ⟨rfl, fun _ => rfl, by simp⟩

/-- What a step does to the bytes of one connection, t being the step. -/
def Conserves (c : ConnRef) (t : ServerTaken) : Prop :=
  unsent (t.before.objects c).outbound ++ (wire c t.output).flatten =
    transmitted c [t] ++ unsent (t.after.objects c).outbound

def Counts (t : ServerTaken) : Prop :=
  t.after.tx_bytes_total =
    t.before.tx_bytes_total + UInt64.ofNat (transmittedBytes [t]).length

theorem transmitted_none {t : ServerTaken} (none : t.transmission = Option.none) :
    transmitted c [t] = [] ∧ transmittedBytes [t] = [] := by
  simp [transmitted, transmittedBytes, Trace.of, none]

theorem transmitted_some {t : ServerTaken} {ref : ConnRef} {bytes : Bytes}
    (some : t.transmission = Option.some (ref, bytes)) :
    transmitted c [t] = (if ref = c then bytes else []) ∧ transmittedBytes [t] = bytes := by
  by_cases same : ref = c
  · simp [transmitted, transmittedBytes, Trace.of, some, same]
  · simp [transmitted, transmittedBytes, Trace.of, some, same]

theorem Enqueues.conserves {t : ServerTaken} (enqueues : Enqueues t.before (t.after, t.output))
    (none : t.transmission = Option.none) : (∀ c, Conserves c t) ∧ Counts t := by
  constructor
  · intro c
    unfold Conserves
    rw [(transmitted_none none).1, List.nil_append]
    exact enqueues.queues c
  · unfold Counts
    rw [(transmitted_none (c := 0) none).2]
    exact enqueues.total.trans (UInt64.add_zero _).symm

theorem ioStep_conserves (config : Config) (sys : Answers) (s : Server) :
    let t : ServerTaken := ⟨s, .io sys, (ioStep config sys s).1, (ioStep config sys s).2⟩
    (∀ c, Conserves c t) ∧ Counts t := by
  intro t
  cases flushing : s.flushing with
  | none =>
    apply Enqueues.conserves (ioMove_unflushed (ioStep_move config sys s) flushing)
    simp [ServerTaken.transmission, transmission, t, flushing]
  | some ref =>
    obtain ⟨after, flushed, run⟩ := ioStep_flushes config sys flushing
    rcases s.whenUnlocked_cases ref (after, s.sslWrites ref (s.flush sys ref)) with
      ⟨unlocked, taken⟩ | ⟨locked, blocked⟩
    · have sends : t.transmission = some (ref, (s.flush sys ref).accepted) := by
        simp [ServerTaken.transmission, transmission, t, flushing, unlocked]
      have out : t.output = s.sslWrites ref (s.flush sys ref) := by
        simp only [t, run, taken]
      have ends : t.after = after := by
        simp only [t, run, taken]
      constructor
      · intro c
        unfold Conserves
        rw [out, ends, wire_silent fun o mem => sslWrites_items s ref _ o mem c,
          (transmitted_some sends).1, flushed.queues c]
        by_cases same : c = ref
        · rw [if_pos same.symm, if_pos same, same, List.flatten_nil, List.append_nil]
          exact (flush_accepted sys.writes (s.objects ref) s.tx_bytes_total).symm
        · rw [if_neg (Ne.symm same), if_neg same, List.flatten_nil, List.append_nil]
          rfl
      · unfold Counts
        rw [ends, (transmitted_some (c := ref) sends).2, flushed.total]
        exact flush_total sys.writes (s.objects ref) s.tx_bytes_total
    · have out : t.output = [] := by
        simp only [t, run, blocked]
      have ends : t.after = s := by
        simp only [t, run, blocked]
      apply Enqueues.conserves
      · rw [out, ends]
        exact (sameQueues_refl s).enqueues
      · simp [ServerTaken.transmission, transmission, t, flushing, locked]

theorem addConnection_enqueues {cfd : Nat} {now : TimePoint}
    (fresh : unsent (s.objects s.allocated).outbound = []) :
    Enqueues s (addConnection config s cfd now, []) := by
  refine ⟨rfl, ?_⟩
  intro c
  rw [wire_silent (by simp), List.flatten_nil, List.append_nil]
  by_cases new : c = s.allocated
  · rw [new, fresh]
    simp [addConnection, Connection.construct, unsent]
  · rw [addConnection_other new]

theorem Enqueues.closed {s' : Server} (enqueues : Enqueues s (s', [])) (fd : Nat) (io : IoState) :
    Enqueues s ((s'.closeConnection fd).goto io, []) := by
  have closed := (sameQueues_refl s').closed fd io
  refine ⟨closed.total.trans enqueues.total, ?_⟩
  intro c
  rw [closed.queues c]
  exact enqueues.queues c

theorem step_enqueues (fresh : unsent (s.objects s.allocated).outbound = []) {i : Input}
    (other : ∀ sys, i ≠ .io sys) : Enqueues s (step config s i) := by
  have still := sameQueues_refl s
  have move := step_move config s i
  generalize step config s i = r at move ⊢
  cases move with
  | io sys => exact absurd rfl (other sys)
  | @worker w real sys => exact workerMove_enqueues (workerStep_move config sys s w)
  | stays => exact still.enqueues
  | hangup => exact (still.closed _ _).enqueues
  | accepts => exact addConnection_enqueues fresh
  | refuses => exact (addConnection_enqueues fresh).closed _ _
  | shakes | reads | timer | wake =>
    apply SameQueues.enqueues
    exact ⟨rfl, fun _ => rfl, by simp⟩

theorem step_conserves (config : Config) (fresh : unsent (s.objects s.allocated).outbound = [])
    (i : Input) :
    let t : ServerTaken := ⟨s, i, (step config s i).1, (step config s i).2⟩
    (∀ c, Conserves c t) ∧ Counts t := by
  intro t
  cases i with
  | io sys => exact ioStep_conserves config sys s
  | worker | epoll | listen | timer | wake =>
    have enqueues : Enqueues s (step config s t.input) := step_enqueues fresh (by simp [t])
    exact Enqueues.conserves (t := t) enqueues rfl

end

theorem transmitted_append (c : ConnRef) (past later : List ServerTaken) :
    transmitted c (past ++ later) = transmitted c past ++ transmitted c later := by
  unfold transmitted
  rw [Trace.of_append, List.flatten_append]

theorem transmittedBytes_append (past later : List ServerTaken) :
    transmittedBytes (past ++ later) = transmittedBytes past ++ transmittedBytes later := by
  unfold transmittedBytes
  rw [List.filterMap_append, List.flatMap_append]

structure StreamInv (past : List ServerTaken) (s : Server) : Prop where
  wire : WireInv (observed past) s
  queues : ∀ c, transmitted c past ++ unsent (s.objects c).outbound =
    (WssServer.wire c (observed past)).flatten
  total : s.tx_bytes_total = UInt64.ofNat (transmittedBytes past).length

theorem start_stream (disk : FileSystem Bytes) : StreamInv [] (start disk) :=
  ⟨start_wire disk, fun _ => rfl, rfl⟩

theorem step_stream {config : Config} (past : List ServerTaken) (s : Server) (i : Input)
    (inv : StreamInv past s) :
    StreamInv (past ++ [⟨s, i, (step config s i).1, (step config s i).2⟩]) (step config s i).1 := by
  -- nothing was ever pushed for a connection that is not made yet
  have fresh : unsent (s.objects s.allocated).outbound = [] := by
    have none : WssServer.wire s.allocated (observed past) = [] := by
      rcases inv.wire.streams s.allocated with none | ⟨_, _, made⟩
      · exact none
      · exact absurd made (Nat.lt_irrefl _)
    have queue := inv.queues s.allocated
    rw [none] at queue
    exact (List.append_eq_nil_iff.mp queue).2
  obtain ⟨conserves, counts⟩ := step_conserves config fresh i
  have longer : observed (past ++ [⟨s, i, (step config s i).1, (step config s i).2⟩]) =
      observed past ++ (step config s i).2 := by
    simp only [observed, List.flatMap_append, List.flatMap_cons, List.flatMap_nil, List.append_nil]
  refine ⟨?_, ?_, ?_⟩
  · rw [longer]
    exact step_wire inv.wire i
  · intro c
    have here : unsent (s.objects c).outbound ++ (WssServer.wire c (step config s i).2).flatten =
        transmitted c [⟨s, i, (step config s i).1, (step config s i).2⟩] ++
          unsent ((step config s i).1.objects c).outbound := conserves c
    rw [longer, wire_append, List.flatten_append, ← inv.queues c, transmitted_append,
      List.append_assoc, List.append_assoc, here]
  · rw [transmittedBytes_append, List.length_append, UInt64.ofNat_add, ← inv.total]
    exact counts

theorem run_stream (config : Config) (disk : FileSystem Bytes) (inputs : List Input) :
    StreamInv (Run.steps (step config) (start disk) inputs)
      (Run.final (step config) (start disk) inputs) :=
  Run.invariant_history StreamInv step_stream inputs (start_stream disk)

/-- In every run of the server, the bytes SSL_write accepted for a connection, followed by those
    left in its queue, are the pushed items in order: nothing is lost, repeated or mixed with
    another connection's output. If there are any, the first is the upgrade response. The counter
    of sent bytes counts all that was accepted. -/
theorem output_transmitted (config : Config) (disk : FileSystem Bytes) (inputs : List Input) :
    let run := Run.steps (step config) (start disk) inputs
    let last := Run.final (step config) (start disk) inputs
    (∀ c, transmitted c run ++ unsent (last.objects c).outbound =
        (wire c (Run.trace (step config) (start disk) inputs)).flatten) ∧
      (∀ c, wire c (Run.trace (step config) (start disk) inputs) = [] ∨ ∃ accept frames,
        wire c (Run.trace (step config) (start disk) inputs) = acceptResponse accept :: frames) ∧
      last.tx_bytes_total = UInt64.ofNat (transmittedBytes run).length := by
  intro run last
  have inv := run_stream config disk inputs
  refine ⟨inv.queues, ?_, inv.total⟩
  intro c
  rcases inv.wire.streams c with none | ⟨⟨accept, frames, same, _⟩, _⟩
  · exact Or.inl none
  · exact Or.inr ⟨accept, frames, same⟩

end WssServer
