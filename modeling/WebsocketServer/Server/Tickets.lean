import WebsocketServer.Server.Closing
import WebsocketServer.Server.FileCalls
import WebsocketServer.Server.Order
import WebsocketServer.Server.TlsCalls

/- What becomes of every message: it waits, it took effect, or it was dropped with its
   connection, and never two of these or one of them twice. The same for its reply. -/
namespace WssServer

def Task.entry (t : Nat × Task) : ConnRef × Nat × Message := (t.2.weak, t.1, t.2.message)

def Worker.unacted (worker : Worker) : Option (ConnRef × Nat × Message) :=
  worker.task.map Task.entry

def Worker.unanswered (worker : Worker) : Option (ConnRef × Nat) :=
  worker.reply.map fun t => (t.1, t.2.1)

/-- The messages on their way: in the queue, or taken by a worker. -/
def unacted (config : Config) (s : Server) : List (ConnRef × Nat × Message) :=
  s.pool.tasks_.map Task.entry ++ WorkerPool.held Worker.unacted config.workerCount s.workers

def unanswered (config : Config) (s : Server) : List (ConnRef × Nat) :=
  WorkerPool.held Worker.unanswered config.workerCount s.workers

def ticketOf (t : ConnRef × Nat × Message) : ConnRef × Nat := (t.1, t.2.1)

/-- Why a message that took effect is not answered: the worker found its connection closing or
    closed, or the file manager had no reply to it. -/
def Unanswerable (config : Config) (disk : FileSystem Bytes) (inputs : List Input) (s : Server)
    (t : ConnRef × Nat) : Prop :=
  ((s.objects t.1).closing = true ∨ (s.objects t.1).fd = none) ∨
    Produced config disk inputs t.1 t.2 []

/-- The messages and replies of one step: what was under way or is new, and what became of it. -/
structure Accounted (config : Config) (s : Server) (r : Stepped)
    (dropped : List (ConnRef × Nat × Message)) (silent : List (ConnRef × Nat)) : Prop where
  acted : ∀ t, (r.2.filterMap submission).count t + (unacted config s).count t =
    (r.2.filterMap effect).count t + dropped.count t + (unacted config r.1).count t
  answered : ∀ t, ((r.2.filterMap effect).map ticketOf).count t + (unanswered config s).count t =
    (r.2.filterMap answer).count t + silent.count t + (unanswered config r.1).count t

section
variable {config : Config} {s : Server} {r : Stepped} {c : ConnRef}

theorem accounted_stays : Accounted config s (s, []) [] [] := by
  constructor
  · intro t
    simp
  · intro t
    simp

/- The account of a step of one worker is the account of that worker and of the queue. -/
theorem accounted_worker {s' : Server} {w : Nat} {state : Worker} {out : List Observation}
    {dropped : List (ConnRef × Nat × Message)} {silent : List (ConnRef × Nat)}
    (real : w < config.workerCount) (workers : s'.workers = s.workers)
    (acted : ∀ t, (s.pool.tasks_.map Task.entry).count t +
        (s.workers w).unacted.toList.count t = (out.filterMap effect).count t + dropped.count t +
      ((s'.pool.tasks_.map Task.entry).count t + state.unacted.toList.count t))
    (answered : ∀ t, ((out.filterMap effect).map ticketOf).count t +
        (s.workers w).unanswered.toList.count t =
      (out.filterMap answer).count t + silent.count t + state.unanswered.toList.count t)
    (submits : out.filterMap submission = []) :
    Accounted config s (s'.setWorker w state, out) dropped silent := by
  constructor
  · intro t
    have own := acted t
    have held := WorkerPool.count_held_update Worker.unacted s.workers real state t
    simp only [unacted, Server.setWorker, workers, submits, List.count_append, List.count_nil]
    omega
  · intro t
    have own := answered t
    have held := WorkerPool.count_held_update Worker.unanswered s.workers real state t
    simp only [unanswered, Server.setWorker, workers]
    omega

theorem Accounted.append {s₀ : Server} {past : List Observation}
    {dropped dropped' : List (ConnRef × Nat × Message)} {silent silent' : List (ConnRef × Nat)}
    (before : Accounted config s₀ (s, past) dropped silent)
    (now : Accounted config s r dropped' silent') :
    Accounted config s₀ (r.1, past ++ r.2) (dropped ++ dropped') (silent ++ silent') := by
  constructor
  · intro t
    have first := before.acted t
    have second := now.acted t
    dsimp only at first
    simp only [List.filterMap_append, List.count_append]
    omega
  · intro t
    have first := before.answered t
    have second := now.answered t
    dsimp only at first
    simp only [List.filterMap_append, List.map_append, List.count_append]
    omega

theorem accounted_main (main : MainOnly s r) : Accounted config s r [] [] := by
  have replies : unanswered config r.1 = unanswered config s := by
    unfold unanswered
    rw [main.workers]
  rcases main.tasks with ⟨pool, plain⟩ | ⟨c, message, _, pool, out⟩
  · have silent (o : Observation) (mem : o ∈ r.2) := plain_silent (plain o mem)
    have submits : r.2.filterMap submission = [] :=
      List.filterMap_eq_nil_iff.mpr fun o mem => (silent o mem).1
    have effects : r.2.filterMap effect = [] :=
      List.filterMap_eq_nil_iff.mpr fun o mem => (silent o mem).2.1
    have answers : r.2.filterMap answer = [] :=
      List.filterMap_eq_nil_iff.mpr fun o mem => (silent o mem).2.2
    have same : unacted config r.1 = unacted config s := by
      unfold unacted
      rw [main.workers, pool]
    constructor
    · intro t
      simp [submits, effects, same]
    · intro t
      simp [effects, answers, replies]
  · constructor
    · intro t
      simp only [out, unacted, main.workers, pool, ThreadPool.submit, List.map_append,
        List.count_append]
      have new : [Observation.submitted c s.pool.submitted_ message].filterMap effect = [] := rfl
      simp [submission, new, Task.entry]
      omega
    · intro t
      simp [out, replies]
      rfl

theorem step_closing (made : c < s.allocated) (closing : (s.objects c).closing = true) (i : Input) :
    ((step config s i).1.objects c).closing = true := by
  have added {cfd : Nat} {now : TimePoint} :
      ((addConnection config s cfd now).objects c).closing = true := by
    rw [addConnection_other (Nat.ne_of_lt made), closing]
  have move := step_move config s i
  generalize step config s i = r at move ⊢
  cases move with
  | io sys => exact (ioMove_kept (ioStep_move config sys s) c).closing closing
  | @worker w real sys =>
    have moved := workerStep_move config sys s w
    generalize workerStep config sys s w = r at moved ⊢
    cases moved with
    | @enters ticket conn frames ready unlocked open' =>
      exact (s.modify_keeps conn (fun c => { c with outbound_mu := some w }) Connection.closing rfl
        c).trans closing
    | @pushes ticket conn frames inside =>
      exact (s.modify_keeps conn (fun c => { c.enqueue frames with outbound_mu := none })
        Connection.closing rfl c).trans closing
    | _ => exact closing
  | hangup fd e => exact (kept_close s fd c).closing closing
  | accepts now waits fresh => exact added
  | @refuses cfd now waits fresh => exact (kept_close _ cfd c).closing added
  | stays | shakes | reads | timer | wake => exact closing

end

section
variable {config : Config} {disk : FileSystem Bytes} {inputs : List Input} {s : Server}

/-- What is dropped is dropped with its connection, and what is left unanswered has a reason. -/
structure Excused (config : Config) (disk : FileSystem Bytes) (inputs : List Input) (s : Server)
    (dropped : List (ConnRef × Nat × Message)) (silent : List (ConnRef × Nat)) : Prop where
  gone : ∀ t ∈ dropped, Gone config s t.1
  unanswerable : ∀ t ∈ silent, t.1 < s.allocated ∧ Unanswerable config disk inputs s t

def Balanced (config : Config) (disk : FileSystem Bytes) (inputs : List Input) (s : Server)
    (r : Stepped) : Prop :=
  ∃ dropped silent, Excused config disk inputs s dropped silent ∧
    Accounted config s r dropped silent

theorem excused_nothing : Excused config disk inputs s [] [] :=
  ⟨by simp, by simp⟩

theorem balanced_stays : Balanced config disk inputs s (s, []) :=
  ⟨[], [], excused_nothing, accounted_stays⟩

section
variable {w ticket : Nat} {task : Task} {conn : ConnRef} {frames : List Bytes}
  {sys : FileTransferManager.SysResults}

theorem workerLoop_balanced (real : w < config.workerCount) (state : s.workers w = .waiting) :
    Balanced config disk inputs s (workerLoop s w) := by
  unfold workerLoop
  cases front : s.pool.take with
  | none => exact balanced_stays
  | some taken =>
    obtain ⟨⟨ticket, task⟩, pool⟩ := taken
    refine ⟨[], [], excused_nothing, accounted_worker real ?_ ?_ ?_ ?_⟩
    · rfl
    · intro t
      simp [(ThreadPool.take_some front).1, state, Worker.unacted, Worker.task, List.count_cons]
    · intro t
      simp [state, Worker.unanswered, Worker.reply]
    · rfl

theorem fetched_balanced (refs : RefInv s) (real : w < config.workerCount)
    (state : s.workers w = .fetched ticket task) :
    Balanced config disk inputs s
      (s.setWorker w (if expired config s task.weak then .waiting else .locked ticket task),
        []) := by
  have old := refs.tasks.workers w (ticket, task) (by rw [state]; rfl)
  by_cases gone : expired config s task.weak = true
  · rw [if_pos gone]
    refine ⟨[Task.entry (ticket, task)], [], ⟨?_, by simp⟩, accounted_worker real rfl ?_ ?_ ?_⟩
    · intro t mem
      rw [List.mem_singleton.mp mem]
      exact ⟨old, (expired_iff config s task.weak).mp gone⟩
    · intro t
      simp [state, Worker.unacted, Worker.task]
      omega
    · intro t
      simp [state, Worker.unanswered, Worker.reply]
    · rfl
  · rw [if_neg gone]
    refine ⟨[], [], excused_nothing, accounted_worker real rfl ?_ ?_ ?_⟩
    · intro t
      simp [state, Worker.unacted, Worker.task]
    · intro t
      simp [state, Worker.unanswered, Worker.reply]
    · rfl

/- A message takes effect; what is left is its reply, or nothing to answer it with. -/
theorem accounted_handled {fileManager : FileTransferManager.Manager} {next : Worker}
    {silent : List (ConnRef × Nat)} (real : w < config.workerCount)
    (state : s.workers w = .locked ticket task) (acted : next.unacted = none)
    (left : next.unanswered.toList ++ silent = [(task.weak, ticket)]) :
    Accounted config s ({ s with fileManager }.setWorker w next,
      [.handled task.weak ticket task.message]) [] silent := by
  apply accounted_worker real
  · rfl
  · intro t
    rw [acted, state]
    simp [Worker.unacted, Worker.task, Task.entry, effect]
    omega
  · intro t
    have both := congrArg (List.count t) left
    have quiet : [Observation.handled task.weak ticket task.message].filterMap answer = [] := rfl
    rw [state, quiet]
    simp [Worker.unanswered, Worker.reply, effect, ticketOf] at both ⊢
    omega
  · rfl

theorem runTask_balanced (inv : ReplyInv config disk inputs s) (refs : RefInv s)
    (real : w < config.workerCount) (state : s.workers w = .locked ticket task) :
    Balanced config disk (inputs ++ [.worker w sys]) s
      (runTask sys s w ticket task.weak task.message) := by
  have made := handled_reply inv real state sys
  have held := refs.workers w task.weak (by rw [state]; rfl)
  obtain ⟨weak, message⟩ := task
  cases message with
  | text payload => exact ⟨[], [], excused_nothing, accounted_handled real state rfl rfl⟩
  | binary payload =>
    unfold runTask
    dsimp only
    by_cases none : (FileTransferManager.handleClientMessage sys payload s.fileManager).2 = []
    · rw [if_pos none]
      refine ⟨[], [(weak, ticket)], ⟨by simp, ?_⟩, accounted_handled real state rfl rfl⟩
      intro t mem
      rw [List.mem_singleton.mp mem]
      simp only [replyFrames, none, List.map_nil] at made
      exact ⟨held, Or.inr made⟩
    · rw [if_neg none]
      exact ⟨[], [], excused_nothing, accounted_handled real state rfl rfl⟩

theorem checkOpen_balanced (refs : RefInv s) (sockets : SocketInv s) (real : w < config.workerCount)
    (state : s.workers w = .replying ticket conn frames) :
    Balanced config disk inputs s (checkOpen s w ticket conn frames) := by
  have held := refs.workers w conn (by rw [state]; rfl)
  unfold checkOpen
  by_cases refused : ((s.objects conn).closing || (s.objects conn).fd.isNone ||
      !(s.objects conn).ssl) = true
  · simp only [if_pos refused]
    refine ⟨[], [(conn, ticket)], ⟨by simp, ?_⟩, accounted_worker real rfl ?_ ?_ ?_⟩
    · intro t mem
      rw [List.mem_singleton.mp mem]
      simp only [sockets.ssl conn held, Bool.not_true, Bool.or_false, Bool.or_eq_true,
        Option.isNone_iff_eq_none] at refused
      exact ⟨held, Or.inl refused⟩
    · intro t
      simp [state, Worker.unacted, Worker.task]
    · intro t
      simp [state, Worker.unanswered, Worker.reply]
    · rfl
  · simp only [if_neg refused]
    refine ⟨[], [], excused_nothing, accounted_worker real (s.modify_workers conn _) ?_ ?_ ?_⟩
    · intro t
      simp [state, Worker.unacted, Worker.task, Server.modify]
    · intro t
      simp [state, Worker.unanswered, Worker.reply]
    · rfl

theorem pushReplies_balanced (real : w < config.workerCount)
    (state : s.workers w = .appending ticket conn frames) :
    Balanced config disk inputs s (pushReplies s w ticket conn frames) := by
  refine ⟨[], [], excused_nothing, accounted_worker real (s.modify_workers conn _) ?_ ?_ ?_⟩
  · intro t
    simp [state, Worker.unacted, Worker.task, Server.modify]
    rfl
  · intro t
    simp [state, Worker.unanswered, Worker.reply, answer]
    rfl
  · rfl

theorem notifying_balanced (real : w < config.workerCount) (state : s.workers w = .notifying conn) :
    Balanced config disk inputs s (s.setWorker w .waiting, []) := by
  refine ⟨[], [], excused_nothing, accounted_worker real rfl ?_ ?_ ?_⟩
  · intro t
    simp [state, Worker.unacted, Worker.task]
  · intro t
    simp [state, Worker.unanswered, Worker.reply]
  · rfl

theorem workerStep_balanced (inv : ReplyInv config disk inputs s) (refs : RefInv s)
    (sockets : SocketInv s) (real : w < config.workerCount) :
    Balanced config disk (inputs ++ [.worker w sys]) s (workerStep config sys s w) := by
  unfold workerStep
  cases state : s.workers w with
  | waiting => exact workerLoop_balanced real state
  | fetched ticket task => exact fetched_balanced refs real state
  | locked ticket task => exact runTask_balanced inv refs real state
  | replying ticket conn frames =>
    rcases s.whenUnlocked_cases conn (checkOpen s w ticket conn frames) with
      ⟨_, run⟩ | ⟨_, run⟩
    · simp only [run]
      exact checkOpen_balanced refs sockets real state
    · simp only [run]
      exact balanced_stays
  | appending ticket conn frames => exact pushReplies_balanced real state
  | notifying conn => exact notifying_balanced real state

end

theorem unanswerable_step {t : ConnRef × Nat} (made : t.1 < s.allocated)
    (unanswerable : Unanswerable config disk inputs s t) (i : Input) :
    Unanswerable config disk inputs (step config s i).1 t := by
  rcases unanswerable with (closing | closed) | produced
  · exact Or.inl (Or.inl (step_closing made closing i))
  · exact Or.inl (Or.inr (step_closed made closed i))
  · exact Or.inr produced

theorem step_balanced (inv : ReplyInv config disk inputs s) (refs : RefInv s)
    (sockets : SocketInv s) (i : Input) :
    Balanced config disk (inputs ++ [i]) s (step config s i) := by
  cases i with
  | worker w sys =>
    by_cases real : w < config.workerCount
    · simp only [step, if_pos real]
      exact workerStep_balanced inv refs sockets real
    · simp only [step, if_neg real]
      exact balanced_stays
  | io | epoll | listen | timer | wake =>
    exact ⟨[], [], excused_nothing, accounted_main (step_main config s (by simp))⟩

theorem Excused.later {dropped : List (ConnRef × Nat × Message)} {silent : List (ConnRef × Nat)}
    (excused : Excused config disk inputs s dropped silent) (i : Input) :
    Excused config disk inputs (step config s i).1 dropped silent where
  gone := fun t mem => gone_step (excused.gone t mem) i
  unanswerable := by
    intro t mem
    obtain ⟨made, excuse⟩ := excused.unanswerable t mem
    exact ⟨Nat.lt_of_lt_of_le made (step_allocated config s i), unanswerable_step made excuse i⟩

theorem Excused.append {dropped dropped' : List (ConnRef × Nat × Message)}
    {silent silent' : List (ConnRef × Nat)} {i : Input}
    (old : Excused config disk inputs s dropped silent)
    (new : Excused config disk (inputs ++ [i]) s dropped' silent') :
    Excused config disk (inputs ++ [i]) s (dropped ++ dropped') (silent ++ silent') where
  gone := by
    intro t mem
    exact (List.mem_append.mp mem).elim (old.gone t) (new.gone t)
  unanswerable := by
    intro t mem
    rcases List.mem_append.mp mem with before | now
    · obtain ⟨made, excuse⟩ := old.unanswerable t before
      exact ⟨made, excuse.imp_right fun produced => produced.append i⟩
    · exact new.unanswerable t now

end

end WssServer
