import WebsocketServer.Server.Workers

/- Who holds a connection object, and when its weak references expire. -/
namespace WssServer

def Referenced (config : Config) (s : Server) (c : ConnRef) : Prop :=
  (∃ fd, s.conns.lookup fd = some c) ∨ s.io.holds = some c ∨
    ∃ w < config.workerCount, (s.workers w).holds = some c

theorem expired_iff (config : Config) (s : Server) (c : ConnRef) :
    expired config s c = true ↔ ¬ Referenced config s c := by
  have table : (s.conns.entries.all fun kv => kv.2 != c) = true ↔
      ∀ fd, s.conns.lookup fd ≠ some c := by
    rw [List.all_eq_true]
    constructor
    · intro none fd found
      have other := none ⟨fd, c⟩ (AList.mem_lookup_iff.mp found)
      simp at other
    · intro none kv mem
      have found := none kv.1
      simp only [bne_iff_ne]
      rintro rfl
      exact found (AList.mem_lookup_iff.mpr mem)
  unfold expired Referenced
  simp only [Bool.and_eq_true, table, bne_iff_ne, List.all_eq_true, List.mem_range]
  constructor
  · intro ⟨⟨conns, io⟩, workers⟩ held
    rcases held with ⟨fd, found⟩ | held | ⟨w, real, held⟩
    · exact conns fd found
    · exact io held
    · exact workers w real held
  · intro free
    exact ⟨⟨fun fd found => free (Or.inl ⟨fd, found⟩), fun held => free (Or.inr (Or.inl held))⟩,
      fun w real held => free (Or.inr (Or.inr ⟨w, real, held⟩))⟩

section
variable {config : Config} {s : Server} {c : ConnRef}

theorem main_references {s' : Server} (workers : s'.workers = s.workers)
    (conns : ∀ fd, s'.conns.lookup fd = some c → Referenced config s c)
    (io : s'.io.holds = some c → Referenced config s c) (held : Referenced config s' c) :
    Referenced config s c := by
  rcases held with ⟨fd, found⟩ | held | ⟨w, real, held⟩
  · exact conns fd found
  · exact io held
  · rw [workers] at held
    exact Or.inr (Or.inr ⟨w, real, held⟩)

theorem ioOnly_references {r : Stepped} (only : IoOnly s r) (held : Referenced config r.1 c) :
    Referenced config s c :=
  main_references only.workers (fun fd found => Or.inl ⟨fd, only.conns fd c found⟩)
    (fun held => Or.inr (Or.inl (only.holds c held))) held

/- A worker comes to hold an object only while something else still holds it. -/
theorem workerMove_references {w : Nat} {r : Stepped} (real : w < config.workerCount)
    (move : WorkerMove config s w r) (held : Referenced config r.1 c) : Referenced config s c := by
  have table := workerMove_table move
  have own (here : (s.workers w).holds = some c) : Referenced config s c :=
    Or.inr (Or.inr ⟨w, real, here⟩)
  have workers : ∀ w', w' < config.workerCount → (r.1.workers w').holds = some c →
      Referenced config s c := by
    have set (s' : Server) {state : Worker} (workers : s'.workers = s.workers)
        (new : state.holds = some c → Referenced config s c) :
        ∀ w', w' < config.workerCount → ((s'.setWorker w state).workers w').holds = some c →
          Referenced config s c := by
      apply setWorker_cases (P := fun w' state => w' < config.workerCount →
        state.holds = some c → Referenced config s c)
      · intro w' _ real' here
        rw [workers] at here
        exact Or.inr (Or.inr ⟨w', real', here⟩)
      · exact fun _ => new
    cases move with
    | stays => exact fun w' real' here => Or.inr (Or.inr ⟨w', real', here⟩)
    | takes idle front => exact set _ rfl (by simp [Worker.holds])
    | drops fetched gone => exact set _ rfl (by simp [Worker.holds])
    | @locks ticket task fetched alive =>
      apply set _ rfl
      intro here
      obtain rfl := Option.some.inj here
      by_contra free
      rw [(expired_iff config s task.weak).mpr free] at alive
      contradiction
    | handles locked after =>
      apply set _ rfl
      intro here
      rcases after with rfl | ⟨_, rfl⟩
      · contradiction
      · exact own (by rw [locked]; exact here)
    | refuses ready => exact set _ rfl (by simp [Worker.holds])
    | enters ready unlocked open' =>
      exact set (s.modify _ _) rfl fun here => own (by rw [ready]; exact here)
    | pushes inside => exact set (s.modify _ _) rfl fun here => own (by rw [inside]; exact here)
    | returns pushed => exact set _ rfl (by simp [Worker.holds])
  rcases held with ⟨fd, found⟩ | held | ⟨w', real', held⟩
  · rw [table.1] at found
    exact Or.inl ⟨fd, found⟩
  · rw [table.2.1] at held
    exact Or.inr (Or.inl held)
  · exact workers w' real' held

theorem visit_references {fd : Nat} {ref : ConnRef} {io : IoState}
    (found : s.conns.lookup fd = some ref) (on : io.holds = some ref)
    (held : Referenced config (s.goto io) c) : Referenced config s c := by
  have workers : (s.goto io).workers = s.workers := rfl
  apply main_references workers (fun fd found => Or.inl ⟨fd, found⟩) _ held
  intro here
  rw [Server.goto_io, on] at here
  exact Or.inl ⟨fd, found.trans here⟩

theorem addConnection_references {cfd : Nat} {now : TimePoint} (old : c < s.allocated)
    (held : Referenced config (addConnection config s cfd now) c) : Referenced config s c := by
  have workers : (addConnection config s cfd now).workers = s.workers := rfl
  apply main_references workers _ (fun here => Or.inr (Or.inl here)) held
  intro fd found
  by_cases same : fd = cfd
  · rw [same] at found
    simp only [addConnection, AList.lookup_insert, Option.some.injEq] at found
    exact absurd found.symm (Nat.ne_of_lt old)
  · simp only [addConnection, AList.lookup_insert_ne same] at found
    exact Or.inl ⟨fd, found⟩

theorem step_references (old : c < s.allocated) {i : Input}
    (held : Referenced config (step config s i).1 c) : Referenced config s c := by
  have move := step_move config s i
  generalize step config s i = r at move held
  cases move with
  | stays => exact held
  | io sys => exact ioOnly_references (ioStep_only config sys s) held
  | @worker w real sys => exact workerMove_references real (workerStep_move config sys s w) held
  | hangup fd e => exact ioOnly_references (hangup_only s fd) held
  | shakes e found undone => exact visit_references found rfl held
  | reads e found done => exact visit_references found rfl held
  | accepts now waits fresh => exact addConnection_references old held
  | refuses now waits fresh =>
    exact addConnection_references old (ioOnly_references (hangup_only _ _) held)
  | timer now order => exact ioOnly_references (goto_only (released rfl)) held
  | wake order => exact ioOnly_references (goto_only (released rfl)) held

theorem step_allocated (config : Config) (s : Server) (i : Input) :
    s.allocated ≤ (step config s i).1.allocated := by
  have move := step_move config s i
  generalize step config s i = r at move ⊢
  cases move with
  | io sys => exact Nat.le_of_eq (ioStep_only config sys s).allocated.symm
  | @worker w real sys =>
    exact Nat.le_of_eq (workerMove_table (workerStep_move config sys s w)).2.2.symm
  | hangup fd e => exact Nat.le_of_eq (hangup_only s fd).allocated.symm
  | accepts now waits fresh => exact Nat.le_succ _
  | @refuses cfd now waits fresh =>
    have same := (hangup_only (addConnection config s cfd now) cfd).allocated
    exact same ▸ Nat.le_succ _
  | _ => exact Nat.le_refl _

/-- A connection object that was made and that nothing holds any more. -/
def Gone (config : Config) (s : Server) (c : ConnRef) : Prop :=
  c < s.allocated ∧ ¬ Referenced config s c

theorem gone_step (gone : Gone config s c) (i : Input) : Gone config (step config s i).1 c :=
  ⟨Nat.lt_of_lt_of_le gone.1 (step_allocated config s i),
    fun held => gone.2 (step_references gone.1 held)⟩

end

end WssServer
