import WebsocketServer.Server.Dispatch

/- What a worker can do, and what that leaves of the messages and of the references. -/
namespace WssServer

inductive WorkerMove (config : Config) (s : Server) (w : Nat) : Stepped → Prop where
  | stays : WorkerMove config s w (s, [])
  | takes {ticket : Nat} {task : Task} {pool : ThreadPool Task} (idle : s.workers w = .waiting)
      (front : s.pool.take = some ((ticket, task), pool)) :
      WorkerMove config s w ({ s with pool }.setWorker w (.fetched ticket task), [])
  | drops {ticket : Nat} {task : Task} (fetched : s.workers w = .fetched ticket task)
      (gone : expired config s task.weak = true) :
      WorkerMove config s w (s.setWorker w .waiting, [])
  | locks {ticket : Nat} {task : Task} (fetched : s.workers w = .fetched ticket task)
      (alive : expired config s task.weak = false) :
      WorkerMove config s w (s.setWorker w (.locked ticket task), [])
  | handles {ticket : Nat} {task : Task} {next : Worker}
      {fileManager : FileTransferManager.Manager} (locked : s.workers w = .locked ticket task)
      (after : next = .waiting ∨ ∃ frames, next = .replying ticket task.weak frames) :
      WorkerMove config s w ({ s with fileManager }.setWorker w next,
        [.handled task.weak ticket task.message])
  | refuses {ticket : Nat} {conn : ConnRef} {frames : List Bytes}
      (ready : s.workers w = .replying ticket conn frames) :
      WorkerMove config s w (s.setWorker w .waiting, [])
  | enters {ticket : Nat} {conn : ConnRef} {frames : List Bytes}
      (ready : s.workers w = .replying ticket conn frames)
      (unlocked : (s.objects conn).outbound_mu = none) (open' : (s.objects conn).closing = false) :
      WorkerMove config s w
        ((s.modify conn fun c => { c with outbound_mu := some w }).setWorker w
          (.appending ticket conn frames), [])
  | pushes {ticket : Nat} {conn : ConnRef} {frames : List Bytes}
      (inside : s.workers w = .appending ticket conn frames) :
      WorkerMove config s w (pushReplies s w ticket conn frames)
  | returns {conn : ConnRef} (pushed : s.workers w = .notifying conn) :
      WorkerMove config s w (s.setWorker w .waiting, [])

theorem workerStep_move (config : Config) (sys : FileTransferManager.SysResults) (s : Server)
    (w : Nat) : WorkerMove config s w (workerStep config sys s w) := by
  unfold workerStep
  cases state : s.workers w with
  | waiting =>
    unfold workerLoop
    cases front : s.pool.take with
    | none => exact .stays
    | some taken =>
      obtain ⟨⟨ticket, task⟩, pool⟩ := taken
      exact .takes state front
  | fetched ticket task =>
    dsimp only
    by_cases gone : expired config s task.weak = true
    · rw [if_pos gone]
      exact .drops state gone
    · rw [if_neg gone]
      exact .locks state (Bool.not_eq_true _ ▸ gone)
  | locked ticket task =>
    obtain ⟨weak, message⟩ := task
    cases message with
    | text payload =>
      have same : ({ s with fileManager := s.fileManager } : Server) = s := rfl
      rw [← same]
      exact .handles state (Or.inr ⟨_, rfl⟩)
    | binary payload =>
      apply WorkerMove.handles state
      split
      · exact Or.inl rfl
      · exact Or.inr ⟨_, rfl⟩
  | replying ticket conn frames =>
    dsimp only
    rcases s.whenUnlocked_cases conn (checkOpen s w ticket conn frames) with
      ⟨unlocked, run⟩ | ⟨_, run⟩
    · rw [run]
      unfold checkOpen
      by_cases refused : ((s.objects conn).closing || (s.objects conn).fd.isNone ||
          !(s.objects conn).ssl) = true
      · simp only [if_pos refused]
        exact .refuses state
      · simp only [if_neg refused]
        simp only [Bool.or_eq_true, not_or, Bool.not_eq_true] at refused
        exact .enters state unlocked refused.1.1
    · rw [run]
      exact .stays
  | appending ticket conn frames => exact .pushes state
  | notifying conn => exact .returns state

def Worker.task : Worker → Option (Nat × Task)
  | .fetched ticket task | .locked ticket task => some (ticket, task)
  | .waiting | .replying _ _ _ | .appending _ _ _ | .notifying _ => none

/-- A fact about every message that was submitted and has not taken effect. -/
structure Outstanding (P : Nat → Task → Prop) (s : Server) : Prop where
  pool : ∀ t ∈ s.pool.tasks_, P t.1 t.2
  workers : ∀ w t, (s.workers w).task = some t → P t.1 t.2

theorem setWorker_cases {P : Nat → Worker → Prop} {s : Server} {w : Nat} {state : Worker}
    (others : ∀ w', w' ≠ w → P w' (s.workers w')) (new : P w state) (w' : Nat) :
    P w' ((s.setWorker w state).workers w') := by
  rw [Server.setWorker_workers]
  by_cases same : w' = w
  · rw [if_pos same, same]
    exact new
  · rw [if_neg same]
    exact others w' same

theorem setWorker_some {α : Type} {read : Worker → Option α} {Q : α → Prop} {s s' : Server}
    {w : Nat} {state : Worker} (old : ∀ w t, read (s.workers w) = some t → Q t)
    (workers : s'.workers = s.workers) (new : ∀ t, read state = some t → Q t) :
    ∀ w' t, read ((s'.setWorker w state).workers w') = some t → Q t := by
  intro w'
  apply setWorker_cases (P := fun _ state => ∀ t, read state = some t → Q t)
  · intro other _ t here
    rw [workers] at here
    exact old other t here
  · exact new

section
variable {P Q : Nat → Task → Prop} {config : Config} {s : Server} {r : Stepped}

theorem Outstanding.mono (holds : Outstanding P s) (weaker : ∀ ticket task, P ticket task →
    Q ticket task) : Outstanding Q s :=
  ⟨fun t mem => weaker t.1 t.2 (holds.pool t mem),
    fun w t here => weaker t.1 t.2 (holds.workers w t here)⟩

theorem outstanding_main (holds : Outstanding P s) (main : MainOnly s r)
    (new : ∀ c ticket message, .submitted c ticket message ∈ r.2 → P ticket ⟨c, message⟩) :
    Outstanding P r.1 := by
  constructor
  · intro t mem
    rcases main.tasks with ⟨pool, _⟩ | ⟨c, message, _, pool, out⟩
    · rw [pool] at mem
      exact holds.pool t mem
    · rw [pool] at mem
      rcases List.mem_append.mp mem with old | added
      · exact holds.pool t old
      · rw [List.mem_singleton.mp added]
        exact new c _ message (by simp [out])
  · intro w t here
    rw [main.workers] at here
    exact holds.workers w t here

theorem outstanding_worker {w : Nat} (holds : Outstanding P s) (move : WorkerMove config s w r) :
    Outstanding P r.1 ∧
      ∀ c ticket message, .handled c ticket message ∈ r.2 → P ticket ⟨c, message⟩ := by
  have set (s' : Server) {state : Worker} (pool : ∀ t ∈ s'.pool.tasks_, P t.1 t.2)
      (workers : s'.workers = s.workers) (new : ∀ t, state.task = some t → P t.1 t.2) :
      Outstanding P (s'.setWorker w state) :=
    ⟨pool, setWorker_some holds.workers workers new⟩
  cases move with
  | stays => exact ⟨holds, by simp⟩
  | takes idle front =>
    have queue := (ThreadPool.take_some front).1
    refine ⟨set _ ?_ rfl ?_, by simp⟩
    · intro t mem
      exact holds.pool t (by rw [queue]; exact List.mem_cons_of_mem _ mem)
    · intro t here
      obtain rfl := Option.some.inj here
      exact holds.pool _ (by rw [queue]; exact List.mem_cons_self)
  | drops fetched gone => exact ⟨set s holds.pool rfl (by simp [Worker.task]), by simp⟩
  | locks fetched alive =>
    refine ⟨set s holds.pool rfl ?_, by simp⟩
    intro t here
    exact holds.workers w t (by rw [fetched]; exact here)
  | handles locked after =>
    refine ⟨set _ holds.pool rfl ?_, ?_⟩
    · rcases after with rfl | ⟨_, rfl⟩
      · simp [Worker.task]
      · simp [Worker.task]
    · intro c ticket message mem
      obtain ⟨rfl, rfl, rfl⟩ : c = _ ∧ ticket = _ ∧ message = _ := by
        simpa using List.mem_singleton.mp mem
      exact holds.workers w _ (by rw [locked]; rfl)
  | refuses ready => exact ⟨set s holds.pool rfl (by simp [Worker.task]), by simp⟩
  | enters ready unlocked open' =>
    exact ⟨set (s.modify _ _) holds.pool rfl (by simp [Worker.task]), by simp⟩
  | pushes inside =>
    exact ⟨set (s.modify _ _) holds.pool rfl (by simp [Worker.task]), by simp [pushReplies]⟩
  | returns pushed => exact ⟨set s holds.pool rfl (by simp [Worker.task]), by simp⟩

end

structure RefInv (s : Server) : Prop where
  conns : ∀ fd c, s.conns.lookup fd = some c → c < s.allocated
  io : ∀ c, s.io.holds = some c → c < s.allocated
  tasks : Outstanding (fun _ task => task.weak < s.allocated) s
  workers : ∀ w c, (s.workers w).holds = some c → c < s.allocated

theorem start_refs (disk : FileSystem Bytes) : RefInv (start disk) := by
  constructor
  · intro fd c found
    simp [start] at found
  · intro c held
    simp [start, IoState.holds] at held
  · exact ⟨by simp [start, ThreadPool.empty], by simp [start, Worker.task]⟩
  · intro w c held
    simp [start, Worker.holds] at held

theorem ioOnly_refs {s : Server} {r : Stepped} (inv : RefInv s) (only : IoOnly s r) :
    RefInv r.1 := by
  have main : MainOnly s r := ⟨only.workers, only.tasks⟩
  constructor
  · intro fd c found
    rw [only.allocated]
    exact inv.conns fd c (only.conns fd c found)
  · intro c held
    rw [only.allocated]
    exact inv.io c (only.holds c held)
  · rw [only.allocated]
    apply outstanding_main inv.tasks main
    intro c ticket message mem
    rcases only.tasks with ⟨_, plain⟩ | ⟨c', _, held, _, out⟩
    · exact absurd (plain _ mem) (by simp [Plain])
    · rw [out] at mem
      obtain ⟨rfl, _⟩ : c = c' ∧ _ := by simpa using List.mem_singleton.mp mem
      exact inv.io c held
  · intro w c held
    rw [only.workers] at held
    rw [only.allocated]
    exact inv.workers w c held

theorem workerMove_table {config : Config} {s : Server} {w : Nat} {r : Stepped}
    (move : WorkerMove config s w r) :
    r.1.conns = s.conns ∧ r.1.io = s.io ∧ r.1.allocated = s.allocated := by
  cases move <;> exact ⟨rfl, rfl, rfl⟩

theorem workerMove_others {config : Config} {s : Server} {w w' : Nat} {r : Stepped}
    (move : WorkerMove config s w r) (other : w' ≠ w) : r.1.workers w' = s.workers w' := by
  cases move with
  | stays => rfl
  | _ => exact Function.update_of_ne other ..

theorem workerMove_refs {config : Config} {s : Server} {w : Nat} {r : Stepped} (inv : RefInv s)
    (move : WorkerMove config s w r) : RefInv r.1 := by
  obtain ⟨conns, io, allocated⟩ := workerMove_table move
  constructor
  · rw [conns, allocated]
    exact inv.conns
  · rw [io, allocated]
    exact inv.io
  · rw [allocated]
    exact (outstanding_worker inv.tasks move).1
  · rw [allocated]
    cases move with
    | stays => exact inv.workers
    | takes idle front => exact setWorker_some inv.workers rfl (by simp [Worker.holds])
    | drops fetched gone => exact setWorker_some inv.workers rfl (by simp [Worker.holds])
    | locks fetched alive =>
      apply setWorker_some inv.workers rfl
      intro c held
      obtain rfl := Option.some.inj held
      exact inv.tasks.workers w (_, _) (by rw [fetched]; rfl)
    | handles locked after =>
      have held := inv.workers w _ (by rw [locked]; rfl)
      rcases after with rfl | ⟨_, rfl⟩
      · exact setWorker_some inv.workers rfl (by simp [Worker.holds])
      · exact setWorker_some inv.workers rfl (by simpa [Worker.holds] using held)
    | refuses ready => exact setWorker_some inv.workers rfl (by simp [Worker.holds])
    | enters ready unlocked open' =>
      have held := inv.workers w _ (by rw [ready]; rfl)
      exact setWorker_some inv.workers rfl (by simpa [Worker.holds] using held)
    | pushes inside =>
      have held := inv.workers w _ (by rw [inside]; rfl)
      exact setWorker_some inv.workers rfl (by simpa [Worker.holds] using held)
    | returns pushed => exact setWorker_some inv.workers rfl (by simp [Worker.holds])

theorem addConnection_refs {config : Config} {s : Server} {cfd : Nat} {now : TimePoint}
    (inv : RefInv s) : RefInv (addConnection config s cfd now) := by
  have more {c : ConnRef} (old : c < s.allocated) :
      c < (addConnection config s cfd now).allocated :=
    Nat.lt_succ_of_lt old
  constructor
  · intro fd c found
    by_cases same : fd = cfd
    · rw [same] at found
      simp only [addConnection, AList.lookup_insert, Option.some.injEq] at found
      rw [← found]
      exact Nat.lt_succ_self _
    · simp only [addConnection, AList.lookup_insert_ne same] at found
      exact more (inv.conns fd c found)
  · intro c held
    exact more (inv.io c held)
  · exact ⟨fun t mem => more (inv.tasks.pool t mem),
      fun w t here => more (inv.tasks.workers w t here)⟩
  · intro w c held
    exact more (inv.workers w c held)

theorem step_refs {config : Config} {s : Server} (inv : RefInv s) (i : Input) :
    RefInv (step config s i).1 := by
  have visit {fd : Nat} {c : ConnRef} (found : s.conns.lookup fd = some c) (io : IoState)
      (held : io.holds = some c) : RefInv (s.goto io) := by
    refine ⟨inv.conns, ?_, ⟨inv.tasks.pool, inv.tasks.workers⟩, inv.workers⟩
    intro c' here
    rw [Server.goto_io, held] at here
    exact Option.some.inj here ▸ inv.conns fd c found
  have move := step_move config s i
  generalize step config s i = r at move ⊢
  cases move with
  | stays => exact inv
  | io sys => exact ioOnly_refs inv (ioStep_only config sys s)
  | @worker w real sys => exact workerMove_refs inv (workerStep_move config sys s w)
  | hangup fd e => exact ioOnly_refs inv (hangup_only s fd)
  | shakes e found undone => exact visit found _ rfl
  | reads e found done => exact visit found _ rfl
  | accepts now waits fresh => exact addConnection_refs inv
  | refuses now waits fresh => exact ioOnly_refs (addConnection_refs inv) (hangup_only _ _)
  | timer now order => exact ioOnly_refs inv (goto_only (released rfl))
  | wake order => exact ioOnly_refs inv (goto_only (released rfl))

end WssServer
