import WebsocketServer.File.Upload
import WebsocketServer.Library.Run
import WebsocketServer.Library.WorkerPool
import WebsocketServer.Server.EarlyWrites
import WebsocketServer.Server.References

/- The order in which the messages of a connection take effect and are answered. -/
namespace WssServer

def submission : Observation → Option (ConnRef × Nat × Message)
  | .submitted c ticket message => some (c, ticket, message)
  | _ => none

def effect : Observation → Option (ConnRef × Nat × Message)
  | .handled c ticket message => some (c, ticket, message)
  | _ => none

def answer : Observation → Option (ConnRef × Nat)
  | .enqueued c (.reply ticket) _ => some (c, ticket)
  | _ => none

/-- The messages of a connection take effect in the order they were parsed, none before all
    earlier ones, and their replies are appended in that order. -/
def InOrder (trace : List Observation) : Prop :=
  ∀ c, Trace.of effect c trace <+: Trace.of submission c trace ∧
    (Trace.of answer c trace).Sublist ((Trace.of effect c trace).map Prod.fst)

/-- A message of the connection that came earlier and has not taken effect here. -/
def Worker.unhandledBefore (ticket : Nat) (c : ConnRef) : Worker → Bool
  | .fetched ticket' task | .locked ticket' task => task.weak == c && decide (ticket' < ticket)
  | .waiting | .replying _ _ _ | .appending _ _ _ | .notifying _ => false

/-- A message of the connection that came earlier and is still in work here. -/
def Worker.unansweredBefore (ticket : Nat) (c : ConnRef) : Worker → Bool
  | .fetched ticket' task | .locked ticket' task => task.weak == c && decide (ticket' < ticket)
  | .replying ticket' conn _ | .appending ticket' conn _ => conn == c && decide (ticket' < ticket)
  | .waiting | .notifying _ => false

/-- The step lets a message take effect, or appends its replies, before an earlier message of the
    same connection that another worker holds. -/
def overtakes (config : Config) (s : Server) : Input → Bool
  | .worker w _ =>
      match s.workers w with
      | .locked ticket task => (List.range config.workerCount).any fun w' =>
          (s.workers w').unhandledBefore ticket task.weak
      | .appending ticket conn _ => (List.range config.workerCount).any fun w' =>
          (s.workers w').unansweredBefore ticket conn
      | _ => false
  | _ => false

def Worker.slot : Worker → WorkerPool.Slot ConnRef Message
  | .waiting | .notifying _ => .idle
  | .fetched ticket task | .locked ticket task => .running ⟨ticket, task.weak, task.message⟩
  | .replying ticket conn _ | .appending ticket conn _ => .answering ticket conn

def job (t : Nat × Task) : WorkerPool.Job ConnRef Message := ⟨t.1, t.2.weak, t.2.message⟩

def workerPool (past : List Observation) (s : Server) (gone : ConnRef → Prop) :
    WorkerPool.State ConnRef Message where
  next := s.pool.submitted_
  queue := s.pool.tasks_.map job
  worker := Worker.slot ∘ s.workers
  submitted := fun c => Trace.of submission c past
  handled := fun c => Trace.of effect c past
  replied := fun c => Trace.of answer c past
  gone := gone

section
variable {past : List Observation} {config : Config} {s s' : Server} {r : Stepped}
  {gone : ConnRef → Prop}

theorem workerPool_silent {out : List Observation} (pool : s'.pool = s.pool)
    (workers : s'.workers = s.workers)
    (silent : ∀ o ∈ out, submission o = none ∧ effect o = none ∧ answer o = none) :
    workerPool (past ++ out) s' gone = workerPool past s gone := by
  unfold workerPool
  rw [pool, workers]
  congr 1
  · funext c
    exact Trace.of_silent (fun o mem => (silent o mem).1) c
  · funext c
    exact Trace.of_silent (fun o mem => (silent o mem).2.1) c
  · funext c
    exact Trace.of_silent (fun o mem => (silent o mem).2.2) c

theorem plain_silent {o : Observation} (plain : Plain o) :
    submission o = none ∧ effect o = none ∧ answer o = none := by
  cases o with
  | sslWrite | peerClose => exact ⟨rfl, rfl, rfl⟩
  | enqueued c kind items =>
    cases kind with
    | reply ticket => exact plain.elim
    | _ => exact ⟨rfl, rfl, rfl⟩
  | submitted | handled => exact plain.elim

theorem main_refines (main : MainOnly s r) :
    workerPool (past ++ r.2) r.1 gone = workerPool past s gone ∨
      WorkerPool.Step (workerPool past s gone) (workerPool (past ++ r.2) r.1 gone) := by
  rcases main.tasks with ⟨pool, plain⟩ | ⟨c, message, _, pool, out⟩
  · exact Or.inl (workerPool_silent pool main.workers fun o mem => plain_silent (plain o mem))
  · right
    have target := WorkerPool.Step.submit (s := workerPool past s gone) c message
    convert target using 1
    apply WorkerPool.State.ext
    · simp only [workerPool, pool, ThreadPool.submit]
    · simp only [workerPool, pool, ThreadPool.submit, List.map_append]
      rfl
    · simp only [workerPool, main.workers]
    · simp only [workerPool, out]
      exact WorkerPool.push_of (rfl : submission (.submitted c s.pool.submitted_ message) =
        some (c, s.pool.submitted_, message))
    · simp only [workerPool, out]
      exact Trace.of_skip rfl
    · simp only [workerPool, out]
      exact Trace.of_skip rfl
    · rfl

theorem workerPool_setWorker (w : Nat) (state : Worker) :
    workerPool past (s.setWorker w state) gone = { workerPool past s gone with
      worker := Function.update (workerPool past s gone).worker w state.slot } := by
  simp only [workerPool, Server.setWorker, Function.comp_update]

theorem workerPool_stays {w : Nat} {state : Worker} (same : state.slot = (s.workers w).slot) :
    workerPool past (s.setWorker w state) gone = workerPool past s gone := by
  have unchanged : Function.update (Worker.slot ∘ s.workers) w state.slot =
      Worker.slot ∘ s.workers := by
    rw [same]
    exact Function.update_eq_self w (Worker.slot ∘ s.workers)
  rw [workerPool_setWorker]
  simp only [workerPool, unchanged]

/- What taking a task, handling a message and appending its replies are to the pool. -/
theorem workerPool_taken {t : Nat × Task} {pool : ThreadPool Task}
    (front : s.pool.take = some (t, pool)) (w : Nat) (state : Worker) :
    workerPool past ({ s with pool }.setWorker w state) gone = { workerPool past s gone with
      queue := pool.tasks_.map job
      worker := Function.update (workerPool past s gone).worker w state.slot } := by
  rw [workerPool_setWorker]
  apply WorkerPool.State.ext
  · exact (ThreadPool.take_some front).2
  all_goals rfl

theorem workerPool_handled (w ticket : Nat) (c : ConnRef) (message : Message)
    (fileManager : FileTransferManager.Manager) (state : Worker) :
    workerPool (past ++ [.handled c ticket message]) ({ s with fileManager }.setWorker w state)
        gone =
      { workerPool past s gone with
        worker := Function.update (workerPool past s gone).worker w state.slot
        handled := WorkerPool.push (workerPool past s gone).handled c (ticket, message) } := by
  apply WorkerPool.State.ext
  · rfl
  · rfl
  · exact Function.comp_update Worker.slot s.workers w state
  · exact Trace.of_skip (rfl : submission (.handled c ticket message) = none)
  · exact WorkerPool.push_of (rfl : effect (.handled c ticket message) =
      some (c, ticket, message))
  · exact Trace.of_skip (rfl : answer (.handled c ticket message) = none)
  · rfl

theorem workerPool_pushed (w ticket : Nat) (conn : ConnRef) (frames : List Bytes) :
    workerPool (past ++ (pushReplies s w ticket conn frames).2)
        (pushReplies s w ticket conn frames).1 gone =
      { workerPool past s gone with
        worker := Function.update (workerPool past s gone).worker w .idle
        replied := WorkerPool.push (workerPool past s gone).replied conn ticket } := by
  apply WorkerPool.State.ext
  · rfl
  · rfl
  · exact Function.comp_update Worker.slot s.workers w (.notifying conn)
  · exact Trace.of_skip (rfl : submission (.enqueued conn (.reply ticket) frames) = none)
  · exact Trace.of_skip (rfl : effect (.enqueued conn (.reply ticket) frames) = none)
  · exact WorkerPool.push_of (rfl : answer (.enqueued conn (.reply ticket) frames) =
      some (conn, ticket))
  · rfl

theorem unhandledBefore_iff {worker : Worker} {ticket : Nat} {c : ConnRef} :
    worker.unhandledBefore ticket c = true ↔
      ∃ job, worker.slot = .running job ∧ job.channel = c ∧ job.ticket < ticket := by
  cases worker <;> simp [Worker.unhandledBefore, Worker.slot]

theorem unansweredBefore_iff {worker : Worker} {ticket : Nat} {c : ConnRef} :
    worker.unansweredBefore ticket c = true ↔
      ∃ ticket', worker.slot.busy = some (ticket', c) ∧ ticket' < ticket := by
  cases worker <;> simp [Worker.unansweredBefore, Worker.slot, WorkerPool.Slot.busy]

theorem busy_real (idle : ∀ w, config.workerCount ≤ w → s.workers w = .waiting) {w : Nat}
    {t : Nat × ConnRef} (busy : (s.workers w).slot.busy = some t) : w < config.workerCount := by
  by_contra far
  rw [idle w (Nat.not_lt.mp far)] at busy
  contradiction

theorem handles_first (idle : ∀ w, config.workerCount ≤ w → s.workers w = .waiting) {w : Nat}
    {ticket : Nat} {task : Task} (locked : s.workers w = .locked ticket task)
    {sys : FileTransferManager.SysResults} (within : overtakes config s (.worker w sys) = false)
    (w' : Nat) (job' : WorkerPool.Job ConnRef Message)
    (running : (s.workers w').slot = .running job') (channel : job'.channel = task.weak) :
    ticket ≤ job'.ticket := by
  have real : w' < config.workerCount := busy_real idle (by rw [running]; rfl)
  simp only [overtakes, locked, List.any_eq_false, List.mem_range] at within
  by_contra earlier
  apply within w' real
  exact unhandledBefore_iff.mpr ⟨job', running, channel, Nat.not_le.mp earlier⟩

theorem pushes_first (idle : ∀ w, config.workerCount ≤ w → s.workers w = .waiting) {w : Nat}
    {ticket : Nat} {c : ConnRef} {frames : List Bytes}
    (inside : s.workers w = .appending ticket c frames)
    {sys : FileTransferManager.SysResults} (within : overtakes config s (.worker w sys) = false)
    (w' ticket' : Nat) (busy : (s.workers w').slot.busy = some (ticket', c)) :
    ticket ≤ ticket' := by
  have real : w' < config.workerCount := busy_real idle busy
  simp only [overtakes, inside, List.any_eq_false, List.mem_range] at within
  by_contra earlier
  apply within w' real
  exact unansweredBefore_iff.mpr ⟨ticket', busy, Nat.not_le.mp earlier⟩

theorem worker_refines {w : Nat} (move : WorkerMove config s w r)
    (refs : RefInv s) (real : w < config.workerCount)
    (idle : ∀ w, config.workerCount ≤ w → s.workers w = .waiting)
    (sys : FileTransferManager.SysResults) (within : overtakes config s (.worker w sys) = false) :
    workerPool (past ++ r.2) r.1 (Gone config s) = workerPool past s (Gone config s) ∨
      WorkerPool.Step (workerPool past s (Gone config s))
        (workerPool (past ++ r.2) r.1 (Gone config s)) := by
  cases move with
  | stays =>
    left
    rw [List.append_nil]
  | @takes ticket task pool free front =>
    right
    rw [List.append_nil, workerPool_taken front]
    have first : (workerPool past s (Gone config s)).queue =
        job (ticket, task) :: pool.tasks_.map job :=
      congrArg (List.map job) (ThreadPool.take_some front).1
    exact WorkerPool.Step.take (congrArg Worker.slot free) first
  | @drops ticket task fetched gone =>
    right
    rw [List.append_nil, workerPool_setWorker]
    have old := refs.tasks.workers w (ticket, task) (by rw [fetched]; rfl)
    exact WorkerPool.Step.drop (congrArg Worker.slot fetched)
      ⟨old, (expired_iff config s task.weak).mp gone⟩
  | locks fetched alive =>
    left
    rw [List.append_nil]
    exact workerPool_stays (congrArg Worker.slot fetched).symm
  | @handles ticket task next fileManager locked after =>
    right
    have held : ¬ Gone config s task.weak :=
      fun gone => gone.2 (Or.inr (Or.inr ⟨w, real, by rw [locked]; rfl⟩))
    have slot : next.slot = .idle ∨ next.slot = .answering ticket task.weak := by
      rcases after with rfl | ⟨_, rfl⟩
      · exact Or.inl rfl
      · exact Or.inr rfl
    have running : (workerPool past s (Gone config s)).worker w = .running (job (ticket, task)) :=
      congrArg Worker.slot locked
    rw [workerPool_handled]
    exact WorkerPool.Step.handle running held
      (fun w' job' _ => handles_first idle locked within w' job') slot
  | refuses ready =>
    right
    rw [List.append_nil, workerPool_setWorker]
    exact WorkerPool.Step.leave (congrArg Worker.slot ready)
  | enters ready unlocked open' =>
    left
    rw [List.append_nil]
    exact workerPool_stays (s := s.modify _ _) (congrArg Worker.slot ready).symm
  | @pushes ticket conn frames inside =>
    right
    rw [workerPool_pushed]
    exact WorkerPool.Step.reply (congrArg Worker.slot inside)
      (fun w' ticket' _ => pushes_first idle inside within w' ticket')
  | returns pushed =>
    left
    rw [List.append_nil]
    exact workerPool_stays (congrArg Worker.slot pushed).symm

/-- A step that overtakes nothing is at most one step of the pool, after which some connections
    may have gone. -/
theorem step_refines (refs : RefInv s)
    (idle : ∀ w, config.workerCount ≤ w → s.workers w = .waiting) (i : Input)
    (within : overtakes config s i = false) :
    Relation.ReflTransGen WorkerPool.Step (workerPool past s (Gone config s))
      (workerPool (past ++ (step config s i).2) (step config s i).1
        (Gone config (step config s i).1)) := by
  have lose : WorkerPool.Step
      (workerPool (past ++ (step config s i).2) (step config s i).1 (Gone config s))
      (workerPool (past ++ (step config s i).2) (step config s i).1
        (Gone config (step config s i).1)) := .lose fun c gone => gone_step gone i
  suffices acts : workerPool (past ++ (step config s i).2) (step config s i).1 (Gone config s) =
      workerPool past s (Gone config s) ∨ WorkerPool.Step (workerPool past s (Gone config s))
        (workerPool (past ++ (step config s i).2) (step config s i).1 (Gone config s)) by
    rcases acts with same | acts
    · rw [same] at lose
      exact Relation.ReflTransGen.single lose
    · exact (Relation.ReflTransGen.single acts).tail lose
  cases i with
  | worker w sys =>
    unfold step
    by_cases real : w < config.workerCount
    · simp only [if_pos real]
      exact worker_refines (workerStep_move config sys s w) refs real idle sys within
    · simp only [if_neg real]
      left
      rw [List.append_nil]
  | io | epoll | listen | timer | wake => exact main_refines (step_main config s (by simp))

structure OrderInv (config : Config) (past : List Observation) (s : Server) : Prop where
  refs : RefInv s
  idle : ∀ w, config.workerCount ≤ w → s.workers w = .waiting
  ordered : WorkerPool.Ordered (workerPool past s (Gone config s))

theorem start_order (config : Config) (disk : FileSystem Bytes) :
    OrderInv config [] (start disk) where
  refs := start_refs disk
  idle := fun _ _ => rfl
  ordered := by
    have none : ∀ c, (fun _ => False) c → Gone config (start disk) c := fun _ impossible =>
      impossible.elim
    exact WorkerPool.ordered_step WorkerPool.start_ordered (.lose none)

theorem step_order (inv : OrderInv config past s) (i : Input)
    (within : overtakes config s i = false) :
    OrderInv config (past ++ (step config s i).2) (step config s i).1 where
  refs := step_refs inv.refs i
  idle := by
    intro w far
    cases i with
    | worker w' sys =>
      unfold step
      by_cases real : w' < config.workerCount
      · simp only [if_pos real]
        rw [workerMove_others (workerStep_move config sys s w') (by omega)]
        exact inv.idle w far
      · simp only [if_neg real]
        exact inv.idle w far
    | io | epoll | listen | timer | wake =>
      rw [(step_main config s (by simp)).workers]
      exact inv.idle w far
  ordered := WorkerPool.ordered_steps inv.ordered (step_refines inv.refs inv.idle i within)

end

/-- In a run where no worker overtakes another, the messages of every connection take effect and
    are answered in the order they were parsed. -/
theorem messages_in_order (config : Config) (disk : FileSystem Bytes) (inputs : List Input)
    (within : ∀ t ∈ Run.steps (step config) (start disk) inputs,
      overtakes config t.before t.input = false) :
    InOrder (Run.trace (step config) (start disk) inputs) := by
  have last := Run.invariant_trace (OrderInv config) (fun s i => overtakes config s i = false)
    (fun _ _ i inv allowed => step_order inv i allowed) (start_order config disk) within
  intro c
  exact last.ordered.in_order c

section
open FileTransferManager WebSocketCodec

/-- The client sends FILE_START and FILE_QUERY without waiting, and one read brings both. -/
def startAndQuery : Bytes :=
  buildClientBinaryFrame none (startPayload 7 1 1 1 0 []) ++
    buildClientBinaryFrame none (MSG_FILE_QUERY :: writeU64BE 7)

def pipelinedRun : List Input :=
  upgradeRun ++ [.io { quiet with read := .ret startAndQuery }, .io quiet, .io quiet, .io quiet]

/-- The second worker takes the FILE_QUERY after the first is done with the FILE_START. -/
def inTurn : List Input :=
  pipelinedRun ++ [.worker 0 willing, .worker 0 willing, .worker 0 willing, .worker 0 willing,
    .worker 0 willing, .worker 1 willing, .worker 1 willing, .worker 1 willing, .worker 1 willing,
    .worker 1 willing]

/-- The first worker is stopped right after it took the FILE_START. -/
def overtaking : List Input :=
  pipelinedRun ++ [.worker 0 willing, .worker 1 willing, .worker 1 willing, .worker 1 willing,
    .worker 1 willing, .worker 1 willing, .worker 0 willing, .worker 0 willing]

theorem messages_in_turn : InOrder (Run.trace (step plainConfig) (start .empty) inTurn) :=
  messages_in_order plainConfig .empty inTurn (by decide +kernel)

theorem query_overtakes_start :
    ¬ ∀ (config : Config) (disk : FileSystem Bytes) (inputs : List Input),
      InOrder (Run.trace (step config) (start disk) inputs) := by
  intro claimed
  have order := (claimed plainConfig .empty overtaking 0).1
  revert order
  decide +kernel

example : .enqueued 0 (.reply 1)
      [buildBinaryFrame (mkError .FILE_STATE_NOT_FOUND "file state not found")] ∈
    Run.trace (step plainConfig) (start .empty) overtaking := by
  decide +kernel

end

end WssServer
