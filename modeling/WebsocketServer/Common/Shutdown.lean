import WebsocketServer.Common.ThreadPool
import WebsocketServer.Library.Run

/- The threads of the pool: the submitters, the workers and the destructor, one critical section
   or one call outside the lock at a time, in any order. -/
namespace ThreadPool

inductive Worker (τ : Type*) where
  | entering
  | waiting
  | running (task : Nat × τ)
  | counting (task : Nat × τ)
  | exited

def Worker.runs {τ : Type*} : Worker τ → Option (Nat × τ)
  | .running task => some task
  | _ => none

def Worker.counts {τ : Type*} : Worker τ → Option (Nat × τ)
  | .counting task => some task
  | _ => none

/-- Where the destructor stands; `joining i` has joined the first `i` workers. -/
inductive Destructor where
  | notStarted
  | notifying
  | joining (i : Nat)
  | done
  deriving DecidableEq

structure Threads (τ : Type*) where
  pool : ThreadPool τ
  stop_ : Bool
  workers_ : List (Worker τ)
  completed_ : UInt64
  queue_peak_ : UInt64
  destructor : Destructor

structure Stats where
  submitted : UInt64
  completed : UInt64
  queue_peak : UInt64
  queue_current : UInt64

inductive Act (τ : Type*) where
  | submit (fn : τ)
  | worker (w : Nat)
  | wake (w : Nat)
  | destruct

inductive Event (τ : Type*) where
  | submitted (task : Nat × τ)
  | dequeued (w : Nat) (task : Nat × τ)
  | ran (w : Nat) (task : Nat × τ)
  | counted (w : Nat) (task : Nat × τ)
  | exited (w : Nat)

section
variable {τ : Type*}

def start (worker_count : Nat) : Threads τ where
  pool := empty
  stop_ := false
  workers_ := List.replicate (if worker_count = 0 then 1 else worker_count) .entering
  completed_ := 0
  queue_peak_ := 0
  destructor := .notStarted

def Threads.setWorker (s : Threads τ) (w : Nat) (state : Worker τ) : Threads τ :=
  { s with workers_ := s.workers_.set w state }

def stats (s : Threads τ) : Stats where
  submitted := UInt64.ofNat s.pool.submitted_
  completed := s.completed_
  queue_peak := s.queue_peak_
  queue_current := UInt64.ofNat s.pool.tasks_.length

/-- submit; the loop around compare_exchange_weak keeps the larger of both numbers. -/
def submitStep (s : Threads τ) (fn : τ) : Threads τ × List (Event τ) :=
  let pool := s.pool.submit fn
  ({ s with
      pool
      queue_peak_ := max s.queue_peak_ (UInt64.ofNat pool.tasks_.length) },
    [.submitted (s.pool.submitted_, fn)])

/-- The next step of a worker. Waiting, it sleeps in cv_.wait until it is woken. -/
def workerLoop (s : Threads τ) (w : Nat) : Threads τ × List (Event τ) :=
  match s.workers_[w]? with
  | some .entering =>
      if s.stop_ || !s.pool.tasks_.isEmpty then
        match s.pool.take with
        | none => (s.setWorker w .exited, [.exited w])
        | some (task, pool) =>
            (({ s with pool } : Threads τ).setWorker w (.running task), [.dequeued w task])
      else (s.setWorker w .waiting, [])
  | some (.running task) => (s.setWorker w (.counting task), [.ran w task])
  | some (.counting task) =>
      (({ s with completed_ := s.completed_ + 1 } : Threads τ).setWorker w .entering,
        [.counted w task])
  | _ => (s, [])

/-- A notification reaches a sleeping worker, or it wakes without one. -/
def wake (s : Threads τ) (w : Nat) : Threads τ :=
  match s.workers_[w]? with
  | some .waiting => s.setWorker w .entering
  | _ => s

def Worker.notified : Worker τ → Worker τ
  | .waiting => .entering
  | state => state

def destruct (s : Threads τ) : Threads τ :=
  match s.destructor with
  | .notStarted => { s with stop_ := true, destructor := .notifying }
  | .notifying =>
      { s with workers_ := s.workers_.map Worker.notified, destructor := .joining 0 }
  | .joining i =>
      match s.workers_[i]? with
      | none => { s with destructor := .done }
      | some .exited => { s with destructor := .joining (i + 1) }
      | some _ => s
  | .done => s

def step (s : Threads τ) : Act τ → Threads τ × List (Event τ)
  | .submit fn => submitStep s fn
  | .worker w => workerLoop s w
  | .wake w => (wake s w, [])
  | .destruct => (destruct s, [])

/-- Nobody calls submit once the destructor has started. -/
def Allowed (s : Threads τ) : Act τ → Prop
  | .submit _ => s.destructor = .notStarted
  | _ => True

instance (s : Threads τ) : (act : Act τ) → Decidable (Allowed s act)
  | .submit _ => inferInstanceAs (Decidable (_ = _))
  | .worker _ => .isTrue trivial
  | .wake _ => .isTrue trivial
  | .destruct => .isTrue trivial

def Event.submission : Event τ → Option (Nat × τ)
  | .submitted task => some task
  | _ => none

def Event.removal : Event τ → Option (Nat × τ)
  | .dequeued _ task => some task
  | _ => none

def Event.execution : Event τ → Option (Nat × τ)
  | .ran _ task => some task
  | _ => none

def Event.completion : Event τ → Option (Nat × τ)
  | .counted _ task => some task
  | _ => none

inductive Moved (s : Threads τ) : Act τ → Threads τ → List (Event τ) → Prop where
  | stays (act : Act τ) : Moved s act s []
  | submits (fn : τ) (peak : UInt64) :
      Moved s (.submit fn) { s with pool := s.pool.submit fn, queue_peak_ := peak }
        [.submitted (s.pool.submitted_, fn)]
  | takes {w : Nat} {task : Nat × τ} {pool : ThreadPool τ}
      (here : s.workers_[w]? = some .entering) (front : s.pool.take = some (task, pool)) :
      Moved s (.worker w) (({ s with pool } : Threads τ).setWorker w (.running task))
        [.dequeued w task]
  | exits {w : Nat} (here : s.workers_[w]? = some .entering) (stop : s.stop_ = true)
      (empty : s.pool.tasks_ = []) :
      Moved s (.worker w) (s.setWorker w .exited) [.exited w]
  | waits {w : Nat} (here : s.workers_[w]? = some .entering) (open' : s.stop_ = false) :
      Moved s (.worker w) (s.setWorker w .waiting) []
  | runs {w : Nat} {task : Nat × τ} (here : s.workers_[w]? = some (.running task)) :
      Moved s (.worker w) (s.setWorker w (.counting task)) [.ran w task]
  | counts {w : Nat} {task : Nat × τ} (here : s.workers_[w]? = some (.counting task)) :
      Moved s (.worker w)
        (({ s with completed_ := s.completed_ + 1 } : Threads τ).setWorker w .entering)
        [.counted w task]
  | wakes {w : Nat} (here : s.workers_[w]? = some .waiting) :
      Moved s (.wake w) (s.setWorker w .entering) []
  | stops (at' : s.destructor = .notStarted) :
      Moved s .destruct { s with stop_ := true, destructor := .notifying } []
  | notifies (at' : s.destructor = .notifying) :
      Moved s .destruct
        { s with workers_ := s.workers_.map Worker.notified, destructor := .joining 0 } []
  | joins {i : Nat} (at' : s.destructor = .joining i) (gone : s.workers_[i]? = some .exited) :
      Moved s .destruct { s with destructor := .joining (i + 1) } []
  | finishes {i : Nat} (at' : s.destructor = .joining i) (last : s.workers_[i]? = none) :
      Moved s .destruct { s with destructor := .done } []

theorem workerLoop_moved (s : Threads τ) (w : Nat) :
    Moved s (.worker w) (workerLoop s w).1 (workerLoop s w).2 := by
  unfold workerLoop
  cases here : s.workers_[w]? with
  | none => exact .stays _
  | some state =>
    cases state with
    | entering =>
      by_cases ready : (s.stop_ || !s.pool.tasks_.isEmpty) = true
      · simp only [ready, if_true]
        cases front : s.pool.take with
        | none =>
          have empty := take_none front
          have stop : s.stop_ = true := by simpa [empty] using ready
          exact .exits here stop empty
        | some taken => exact .takes here front
      · simp only [ready]
        have open' : s.stop_ = false := by
          cases stop : s.stop_ with
          | false => rfl
          | true => simp [stop] at ready
        exact .waits here open'
    | waiting => exact .stays _
    | running task => exact .runs here
    | counting task => exact .counts here
    | exited => exact .stays _

theorem step_moved (s : Threads τ) (act : Act τ) : Moved s act (step s act).1 (step s act).2 := by
  cases act with
  | submit fn => exact .submits fn _
  | worker w => exact workerLoop_moved s w
  | wake w =>
    change Moved s (.wake w) (wake s w) []
    unfold wake
    cases here : s.workers_[w]? with
    | none => exact .stays _
    | some state =>
      cases state with
      | waiting => exact .wakes here
      | _ => exact .stays _
  | destruct =>
    change Moved s .destruct (destruct s) []
    unfold destruct
    cases at' : s.destructor with
    | notStarted => exact .stops at'
    | notifying => exact .notifies at'
    | joining i =>
      simp only []
      cases here : s.workers_[i]? with
      | none => exact .finishes at' here
      | some state =>
        cases state with
        | exited => exact .joins at' here
        | _ => exact .stays _
    | done => exact .stays _

theorem set_filterMap {α β : Type*} {workers : List α} {w : Nat} {old : α}
    (here : workers[w]? = some old) (new : α) (f : α → Option β) :
    ((f old).toList ++ (workers.set w new).filterMap f).Perm
      ((f new).toList ++ workers.filterMap f) := by
  obtain ⟨real, same⟩ := List.getElem?_eq_some_iff.mp here
  have before :
      (workers.filterMap f).Perm ((f old).toList ++ (workers.eraseIdx w).filterMap f) := by
    have split := (List.getElem_cons_eraseIdx_perm real).symm.filterMap f
    rw [same] at split
    cases found : f old with
    | none => simpa [found] using split
    | some x => simpa [found] using split
  have after : ((workers.set w new).filterMap f).Perm
      ((f new).toList ++ (workers.eraseIdx w).filterMap f) := by
    have split := (List.set_perm_cons_eraseIdx real new).filterMap f
    cases found : f new with
    | none => simpa [found] using split
    | some x => simpa [found] using split
  have across := List.perm_append_comm_assoc (f old).toList (f new).toList
    ((workers.eraseIdx w).filterMap f)
  exact ((after.append_left _).trans across).trans (before.symm.append_left _)

theorem filterMap_last {α β : Type*} (f : α → Option β) (past : List α) (e : α) :
    (past ++ [e]).filterMap f = past.filterMap f ++ (f e).toList := by
  rw [List.filterMap_append]
  cases found : f e with
  | none => simp [found]
  | some x => simp [found]

theorem filterMap_single {α β : Type*} {f : α → Option β} {l : List α} {a b : α} {x : β}
    (once : (l.filterMap f).Nodup) (here : a ∈ l) (there : b ∈ l) (left : f a = some x)
    (right : f b = some x) : a = b := by
  induction l with
  | nil => simp at here
  | cons c l ih =>
    have later : (l.filterMap f).Nodup :=
      once.sublist ((List.sublist_cons_self c l).filterMap f)
    -- The head of the list and a later entry would put the same value there twice.
    have apart {d : α} (mem : d ∈ l) (found : f d = some x) (head : f c = some x) : False := by
      rw [List.filterMap_cons_some head] at once
      exact (List.nodup_cons.mp once).1 (List.mem_filterMap.mpr ⟨d, mem, found⟩)
    rcases List.mem_cons.mp here with rfl | first
    · rcases List.mem_cons.mp there with rfl | second
      · rfl
      · exact (apart second right left).elim
    · rcases List.mem_cons.mp there with rfl | second
      · exact (apart first left right).elim
      · exact ih later first second

/- The queue: what was taken and what still waits, in the order of the submissions. -/
structure Ordered (past : List (Event τ)) (s : Threads τ) : Prop where
  order : past.filterMap Event.removal ++ s.pool.tasks_ = past.filterMap Event.submission
  issued : s.pool.submitted_ = (past.filterMap Event.submission).length
  bounded : ∀ task ∈ past.filterMap Event.submission, task.1 < s.pool.submitted_
  increasing : (past.filterMap Event.submission).Pairwise fun a b => a.1 < b.1

theorem step_ordered {past : List (Event τ)} {s s' : Threads τ} {act : Act τ}
    {events : List (Event τ)} (move : Moved s act s' events) (sound : Ordered past s) :
    Ordered (past ++ events) s' := by
  obtain ⟨order, issued, bounded, increasing⟩ := sound
  -- What neither submits nor takes a task leaves both lists and the pool.
  have same (quiet : ∀ e ∈ events, e.submission = none ∧ e.removal = none)
      (pool : s'.pool = s.pool) : Ordered (past ++ events) s' := by
    have submissions : events.filterMap Event.submission = [] :=
      List.filterMap_eq_nil_iff.mpr fun e mem => (quiet e mem).1
    have removals : events.filterMap Event.removal = [] :=
      List.filterMap_eq_nil_iff.mpr fun e mem => (quiet e mem).2
    constructor <;> simp only [List.filterMap_append, submissions, removals, List.append_nil, pool]
    · exact order
    · exact issued
    · exact bounded
    · exact increasing
  cases move with
  | submits fn peak =>
    constructor
    · simp [Event.removal, Event.submission, submit, ← order]
    · simp [Event.submission, submit, issued]
    · intro task mem
      simp only [List.filterMap_append, List.mem_append] at mem
      rcases mem with old | new
      · have earlier := bounded task old
        change task.1 < s.pool.submitted_ + 1
        omega
      · obtain rfl : task = (s.pool.submitted_, fn) := by
          simpa [Event.submission] using new
        exact Nat.lt_succ_self _
    · simp only [List.filterMap_append]
      apply List.pairwise_append.mpr
      refine ⟨increasing, by simp [Event.submission], ?_⟩
      intro task old last new
      obtain rfl : last = (s.pool.submitted_, fn) := by
        simpa [Event.submission] using new
      exact bounded task old
  | takes here front =>
    obtain ⟨queue, kept⟩ := take_some front
    constructor <;> simp only [filterMap_last, Event.removal, Event.submission,
      Option.toList_some, Option.toList_none, List.append_nil, Threads.setWorker, kept]
    · simpa [queue] using order
    · exact issued
    · exact bounded
    · exact increasing
  | stays => exact same (by simp) rfl
  | exits here stop empty => exact same (by simp [Event.submission, Event.removal]) rfl
  | waits here open' => exact same (by simp) rfl
  | runs here => exact same (by simp [Event.submission, Event.removal]) rfl
  | counts here => exact same (by simp [Event.submission, Event.removal]) rfl
  | wakes here => exact same (by simp) rfl
  | stops at' => exact same (by simp) rfl
  | notifies at' => exact same (by simp) rfl
  | joins at' gone => exact same (by simp) rfl
  | finishes at' last => exact same (by simp) rfl

/- The workers: what was taken is run or still running, what was run is counted or still to
   count. -/
structure Balanced (past : List (Event τ)) (s : Threads τ) : Prop where
  ran : (past.filterMap Event.execution ++ s.workers_.filterMap Worker.runs).Perm
    (past.filterMap Event.removal)
  counted : (past.filterMap Event.completion ++ s.workers_.filterMap Worker.counts).Perm
    (past.filterMap Event.execution)
  completed : s.completed_ = UInt64.ofNat (past.filterMap Event.completion).length

theorem notified_filterMap (workers : List (Worker τ)) :
    (workers.map Worker.notified).filterMap Worker.runs = workers.filterMap Worker.runs ∧
      (workers.map Worker.notified).filterMap Worker.counts = workers.filterMap Worker.counts := by
  simp only [List.filterMap_map]
  constructor <;> congr 1 <;> funext state <;> cases state <;> rfl

theorem step_balanced {past : List (Event τ)} {s s' : Threads τ} {act : Act τ}
    {events : List (Event τ)} (move : Moved s act s' events) (sound : Balanced past s) :
    Balanced (past ++ events) s' := by
  obtain ⟨ran, counted, completed⟩ := sound
  have quiet (runs : (s'.workers_.filterMap Worker.runs).Perm (s.workers_.filterMap Worker.runs))
      (counts : (s'.workers_.filterMap Worker.counts).Perm (s.workers_.filterMap Worker.counts))
      (silent : events.filterMap Event.removal = [] ∧ events.filterMap Event.execution = [] ∧
        events.filterMap Event.completion = [])
      (count : s'.completed_ = s.completed_) : Balanced (past ++ events) s' := by
    obtain ⟨removal, execution, completion⟩ := silent
    constructor <;> simp only [List.filterMap_append, removal, execution, completion,
      List.append_nil, count]
    · exact (runs.append_left _).trans ran
    · exact (counts.append_left _).trans counted
    · exact completed
  cases move with
  | stays => simpa using ⟨ran, counted, completed⟩
  | submits fn peak => exact quiet (.refl _) (.refl _) ⟨rfl, rfl, rfl⟩ rfl
  | @takes w task pool here front =>
    have running := set_filterMap here (.running task) Worker.runs
    have counting := set_filterMap here (.running task) Worker.counts
    constructor <;> simp only [filterMap_last, Event.removal, Event.execution, Event.completion,
      Option.toList_some, Option.toList_none, List.append_nil, Threads.setWorker]
    · have more := (running.append_left (past.filterMap Event.execution)).trans
        (List.perm_append_comm_assoc ..)
      have taken := (ran.append_left [task]).trans List.perm_append_comm
      exact more.trans taken
    · exact (counting.append_left _).trans counted
    · exact completed
  | exits here stop empty =>
    exact quiet (set_filterMap here .exited Worker.runs)
      (set_filterMap here .exited Worker.counts) ⟨rfl, rfl, rfl⟩ rfl
  | waits here open' =>
    exact quiet (set_filterMap here .waiting Worker.runs)
      (set_filterMap here .waiting Worker.counts) ⟨rfl, rfl, rfl⟩ rfl
  | @runs w task here =>
    have running := set_filterMap here (.counting task) Worker.runs
    have counting := set_filterMap here (.counting task) Worker.counts
    constructor <;> simp only [filterMap_last, Event.removal, Event.execution, Event.completion,
      Option.toList_some, Option.toList_none, List.append_nil, Threads.setWorker]
    · rw [List.append_assoc]
      exact (running.append_left _).trans ran
    · have more := (counting.append_left (past.filterMap Event.completion)).trans
        (List.perm_append_comm_assoc ..)
      have ready := (counted.append_left [task]).trans List.perm_append_comm
      exact more.trans ready
    · exact completed
  | @counts w task here =>
    have running := set_filterMap here .entering Worker.runs
    have counting := set_filterMap here .entering Worker.counts
    constructor <;> simp only [filterMap_last, Event.removal, Event.execution, Event.completion,
      Option.toList_some, Option.toList_none, List.append_nil, Threads.setWorker]
    · exact (running.append_left _).trans ran
    · rw [List.append_assoc]
      exact (counting.append_left _).trans counted
    · rw [List.length_append, UInt64.ofNat_add]
      exact congrArg (· + 1) completed
  | wakes here =>
    exact quiet (set_filterMap here .entering Worker.runs)
      (set_filterMap here .entering Worker.counts) ⟨rfl, rfl, rfl⟩ rfl
  | stops at' => exact quiet (.refl _) (.refl _) ⟨rfl, rfl, rfl⟩ rfl
  | notifies at' =>
    obtain ⟨running, counting⟩ := notified_filterMap s.workers_
    exact quiet (.of_eq running) (.of_eq counting) ⟨rfl, rfl, rfl⟩ rfl
  | joins at' gone => exact quiet (.refl _) (.refl _) ⟨rfl, rfl, rfl⟩ rfl
  | finishes at' last => exact quiet (.refl _) (.refl _) ⟨rfl, rfl, rfl⟩ rfl

def Joined (destructor : Destructor) (workers : List (Worker τ)) : Prop :=
  match destructor with
  | .joining i => ∀ j < i, workers[j]? = some .exited
  | .done => ∀ state ∈ workers, state = .exited
  | _ => True

theorem set_found {workers : List (Worker τ)} {w w' : Nat} {new state : Worker τ}
    (found : (workers.set w new)[w']? = some state) :
    w' = w ∧ state = new ∨ workers[w']? = some state := by
  rw [List.getElem?_set] at found
  by_cases same : w = w'
  · rw [if_pos same] at found
    split at found
    · exact Or.inl ⟨same.symm, (Option.some.inj found).symm⟩
    · contradiction
  · rw [if_neg same] at found
    exact Or.inr found

theorem joined_set {destructor : Destructor} {workers : List (Worker τ)} {w : Nat}
    {old : Worker τ} (joined : Joined destructor workers) (here : workers[w]? = some old)
    (busy : old ≠ .exited) (new : Worker τ) : Joined destructor (workers.set w new) := by
  cases destructor with
  | notStarted => trivial
  | notifying => trivial
  | joining i =>
    intro j below
    have gone := joined j below
    have other : w ≠ j := by
      rintro rfl
      exact busy (Option.some.inj (here.symm.trans gone))
    rw [List.getElem?_set_ne other]
    exact gone
  | done => exact absurd (joined old (List.mem_of_getElem? here)) busy

/- The stop: the flag is the destructor's, and nobody leaves before the queue is empty. -/
structure Drained (s : Threads τ) : Prop where
  stopped : s.stop_ = true ↔ s.destructor ≠ .notStarted
  empty : .exited ∈ s.workers_ → s.stop_ = true ∧ s.pool.tasks_ = []
  joined : Joined s.destructor s.workers_
  staffed : s.workers_ ≠ []

theorem step_drained {s s' : Threads τ} {act : Act τ} {events : List (Event τ)}
    (move : Moved s act s' events) (sound : Drained s) (allowed : Allowed s act) : Drained s' := by
  obtain ⟨stopped, empty, joined, staffed⟩ := sound
  have goes {w : Nat} {old : Worker τ} (here : s.workers_[w]? = some old) (busy : old ≠ .exited)
      (new : Worker τ) (stays : new ≠ .exited) : Drained (s.setWorker w new) := by
    refine ⟨stopped, ?_, joined_set joined here busy new, ?_⟩
    swap
    · simpa [Threads.setWorker] using staffed
    intro gone
    rcases List.mem_or_eq_of_mem_set gone with old | new
    · exact empty old
    · exact absurd new.symm stays
  cases move with
  | stays => exact ⟨stopped, empty, joined, staffed⟩
  | submits fn peak =>
    refine ⟨stopped, ?_, joined, staffed⟩
    intro gone
    exact absurd allowed (stopped.mp (empty gone).1)
  | @takes w task pool here front =>
    have after := goes here (by simp) (.running task) (by simp)
    refine ⟨stopped, ?_, after.joined, after.staffed⟩
    intro gone
    have nothing := (after.empty gone).2
    have queue := (take_some front).1
    rw [show s.pool.tasks_ = [] from nothing] at queue
    contradiction
  | exits here stop nothing =>
    exact ⟨stopped, fun _ => ⟨stop, nothing⟩, joined_set joined here (by simp) _,
      by simpa [Threads.setWorker] using staffed⟩
  | waits here open' => exact goes here (by simp) _ (by simp)
  | runs here => exact goes here (by simp) _ (by simp)
  | counts here =>
    have after := goes here (by simp) .entering (by simp)
    exact ⟨stopped, after.empty, after.joined, after.staffed⟩
  | wakes here => exact goes here (by simp) _ (by simp)
  | stops at' =>
    refine ⟨by simp, fun gone => ⟨rfl, (empty gone).2⟩, trivial, staffed⟩
  | notifies at' =>
    refine ⟨by simp [stopped, at'], ?_, by simp [Joined], by simpa using staffed⟩
    intro gone
    obtain ⟨state, mem, same⟩ := List.mem_map.mp gone
    cases state with
    | exited => exact empty mem
    | _ => simp [Worker.notified] at same
  | @joins i at' gone =>
    refine ⟨by simp [stopped, at'], empty, ?_, staffed⟩
    rw [at'] at joined
    intro j below
    rcases Nat.lt_succ_iff_lt_or_eq.mp below with earlier | rfl
    · exact joined j earlier
    · exact gone
  | @finishes i at' last =>
    refine ⟨by simp [stopped, at'], empty, ?_, staffed⟩
    rw [at'] at joined
    intro state mem
    obtain ⟨j, real, rfl⟩ := List.mem_iff_getElem.mp mem
    have below : j < i := Nat.lt_of_lt_of_le real (List.getElem?_eq_none_iff.mp last)
    have gone := joined j below
    rw [List.getElem?_eq_getElem real] at gone
    exact Option.some.inj gone

/- Who runs a task is the worker that took it. -/
structure Owned (past : List (Event τ)) (s : Threads τ) : Prop where
  running : ∀ w task, s.workers_[w]? = some (.running task) → .dequeued w task ∈ past
  ran : ∀ w task, .ran w task ∈ past → .dequeued w task ∈ past

theorem step_owned {past : List (Event τ)} {s s' : Threads τ} {act : Act τ}
    {events : List (Event τ)} (move : Moved s act s' events) (sound : Owned past s) :
    Owned (past ++ events) s' := by
  obtain ⟨running, ran⟩ := sound
  have more {w : Nat} {task : Nat × τ} (old : .dequeued w task ∈ past) :
      .dequeued w task ∈ past ++ events := List.mem_append_left _ old
  have quiet (workers : ∀ w task, s'.workers_[w]? = some (.running task) →
      .dequeued w task ∈ past ++ events) (silent : ∀ w task, .ran w task ∉ events) :
      Owned (past ++ events) s' := by
    refine ⟨workers, ?_⟩
    intro w task mem
    exact more (ran w task ((List.mem_append.mp mem).resolve_right (silent w task)))
  have goes {w : Nat} {new : Worker τ} (workers : s'.workers_ = s.workers_.set w new)
      (idle : new.runs = none) (w' : Nat) (task : Nat × τ)
      (here : s'.workers_[w']? = some (.running task)) : .dequeued w' task ∈ past ++ events := by
    rw [workers] at here
    rcases set_found here with ⟨_, rfl⟩ | old
    · contradiction
    · exact more (running w' task old)
  cases move with
  | stays => exact quiet (fun w task here => more (running w task here)) (by simp)
  | submits fn peak => exact quiet (fun w task here => more (running w task here)) (by simp)
  | @takes w task pool here front =>
    apply quiet _ (by simp)
    intro w' task' here'
    rcases set_found here' with ⟨rfl, same⟩ | old
    · cases same
      simp
    · exact more (running w' task' old)
  | exits here stop empty => exact quiet (goes rfl rfl) (by simp)
  | waits here open' => exact quiet (goes rfl rfl) (by simp)
  | @runs w task here =>
    refine ⟨goes rfl rfl, ?_⟩
    intro w' task' mem
    rcases List.mem_append.mp mem with old | new
    · exact more (ran w' task' old)
    · cases List.mem_singleton.mp new
      exact more (running w task here)
  | counts here => exact quiet (goes rfl rfl) (by simp)
  | wakes here => exact quiet (goes rfl rfl) (by simp)
  | stops at' => exact quiet (fun w task here => more (running w task here)) (by simp)
  | notifies at' =>
    apply quiet _ (by simp)
    intro w task here
    obtain ⟨state, old, same⟩ := Option.map_eq_some_iff.mp (List.getElem?_map .. ▸ here)
    cases state with
    | running task' =>
      cases same
      exact more (running w task old)
    | _ => simp [Worker.notified] at same
  | joins at' gone => exact quiet (fun w task here => more (running w task here)) (by simp)
  | finishes at' last => exact quiet (fun w task here => more (running w task here)) (by simp)

theorem moved_exits {s s' : Threads τ} {act : Act τ} {events : List (Event τ)} {w : Nat}
    (move : Moved s act s' events) (exits : .exited w ∈ events) :
    s.stop_ = true ∧ s.pool.tasks_ = [] := by
  cases move with
  | exits here stop empty => exact ⟨stop, empty⟩
  | _ => simp at exits

structure Sound (past : List (Event τ)) (s : Threads τ) : Prop where
  ordered : Ordered past s
  balanced : Balanced past s
  drained : Drained s
  owned : Owned past s

theorem step_sound (past : List (Event τ)) (s : Threads τ) (act : Act τ) (sound : Sound past s)
    (allowed : Allowed s act) : Sound (past ++ (step s act).2) (step s act).1 := by
  have move := step_moved s act
  exact ⟨step_ordered move sound.ordered, step_balanced move sound.balanced,
    step_drained move sound.drained allowed, step_owned move sound.owned⟩

theorem start_sound (worker_count : Nat) : Sound [] (start worker_count : Threads τ) := by
  have idle (f : Worker τ → Option (Nat × τ)) (none : f .entering = none) (n : Nat) :
      (List.replicate n (.entering : Worker τ)).filterMap f = [] := by
    simp [none]
  refine ⟨⟨rfl, rfl, by simp, .nil⟩, ⟨?_, ?_, rfl⟩, ⟨by simp [start], ?_, trivial, ?_⟩, ?_, ?_⟩
  · exact .of_eq (idle Worker.runs rfl _)
  · exact .of_eq (idle Worker.counts rfl _)
  · intro gone
    cases List.eq_of_mem_replicate gone
  · unfold start
    split <;> simp [*]
  · intro w task here
    cases List.eq_of_mem_replicate (List.mem_of_getElem? here)
  · simp

def Threads.busy (s : Threads τ) : Nat :=
  (s.workers_.filterMap Worker.runs).length + (s.workers_.filterMap Worker.counts).length

/-- Every task once: what the calls so far and the state they led to say about it. -/
structure Once (past : List (Event τ)) (s : Threads τ) : Prop where
  order : past.filterMap Event.removal ++ s.pool.tasks_ = past.filterMap Event.submission
  distinct : (past.filterMap Event.submission).Nodup
  single : ∀ w w' task, .dequeued w task ∈ past → .dequeued w' task ∈ past → w = w'
  taker : ∀ w task, .ran w task ∈ past → .dequeued w task ∈ past
  conserved : (past.filterMap Event.submission).length =
    (past.filterMap Event.completion).length + s.busy + s.pool.tasks_.length
  counters : (stats s).submitted =
    (stats s).completed + UInt64.ofNat s.busy + (stats s).queue_current
  finished : s.destructor = .done →
    (past.filterMap Event.execution).Perm (past.filterMap Event.submission)

theorem drained_finished {past : List (Event τ)} {s : Threads τ} (sound : Sound past s)
    (done : s.destructor = .done) :
    (past.filterMap Event.execution).Perm (past.filterMap Event.submission) := by
  have joined := sound.drained.joined
  rw [done] at joined
  obtain ⟨state, mem⟩ := List.exists_mem_of_ne_nil _ sound.drained.staffed
  have queue := (sound.drained.empty (joined state mem ▸ mem)).2
  have idle : s.workers_.filterMap Worker.runs = [] := by
    apply List.filterMap_eq_nil_iff.mpr
    intro state mem
    rw [joined state mem]
    rfl
  have order := sound.ordered.order
  have ran := sound.balanced.ran
  rw [queue, List.append_nil] at order
  rw [idle, List.append_nil] at ran
  rw [← order]
  exact ran

theorem sound_once {past : List (Event τ)} {s : Threads τ} (sound : Sound past s) :
    Once past s := by
  obtain ⟨ordered, balanced, drained, owned⟩ := sound
  have distinct : (past.filterMap Event.submission).Nodup := by
    apply ordered.increasing.imp
    rintro a b less rfl
    exact Nat.lt_irrefl _ less
  have conserved : (past.filterMap Event.submission).length =
      (past.filterMap Event.completion).length + s.busy + s.pool.tasks_.length := by
    have queue := congrArg List.length ordered.order
    have ran := balanced.ran.length_eq
    have counted := balanced.counted.length_eq
    simp only [List.length_append] at queue ran counted
    unfold Threads.busy
    omega
  refine ⟨ordered.order, distinct, ?_, owned.ran, conserved, ?_,
    drained_finished ⟨ordered, balanced, drained, owned⟩⟩
  · intro w w' task here there
    have once := (ordered.order ▸ distinct).of_append_left
    exact (Event.dequeued.inj (filterMap_single once here there rfl rfl)).1
  · simp only [stats, ordered.issued, balanced.completed, ← UInt64.ofNat_add]
    exact congrArg UInt64.ofNat conserved

section
variable (worker_count : Nat) (acts : List (Act τ))

/- The pool runs every task exactly once, in whatever order the threads go on. -/
theorem tasks_once
    (allowed : ∀ t ∈ Run.steps step (start worker_count) acts, Allowed t.before t.input) :
    Once (Run.trace step (start worker_count) acts) (Run.final step (start worker_count) acts) ∧
      ∀ t ∈ Run.steps step (start worker_count) acts, ∀ w, .exited w ∈ t.output →
        t.before.stop_ = true ∧ t.before.pool.tasks_ = [] := by
  constructor
  · have sound := Run.invariant_trace Sound Allowed step_sound (start_sound worker_count) allowed
    exact sound_once sound
  · intro t mem w exits
    obtain ⟨after, output⟩ := Run.steps_taken step mem
    rw [output] at exits
    exact moved_exits (step_moved t.before t.input) exits

end

/-- Two workers; the stop comes while one task runs and one is queued. -/
def stopWhileQueued : List (Act Nat) :=
  [.worker 1, .submit 7, .worker 0, .submit 8, .destruct, .destruct, .worker 0, .worker 1,
    .worker 1, .worker 1, .worker 1, .worker 0, .worker 0, .destruct, .destruct, .destruct]

theorem tasks_once_stopped :
    (Run.final step (start 2) stopWhileQueued).destructor = .done ∧
      ((Run.trace step (start 2) stopWhileQueued).filterMap Event.execution).Perm
        [(0, 7), (1, 8)] := by
  have once := (tasks_once 2 stopWhileQueued (by decide)).1
  exact ⟨by decide, once.finished (by decide)⟩

end

end ThreadPool
