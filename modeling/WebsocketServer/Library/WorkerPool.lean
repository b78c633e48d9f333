import Mathlib.Data.List.Sort
import Mathlib.Logic.Function.Basic
import Mathlib.Logic.Relation
import WebsocketServer.Library.Trace

/- Workers that take numbered jobs from one queue and carry them out outside its lock. Every job
   belongs to a channel; a channel may go away, and its jobs are then dropped. A worker may act
   on a job once no other worker still has an earlier one of the channel to act on. -/
namespace WorkerPool

structure Job (κ μ : Type*) where
  ticket : Nat
  channel : κ
  body : μ

def Job.entry {κ μ : Type*} (job : Job κ μ) : Nat × μ := (job.ticket, job.body)

inductive Slot (κ μ : Type*) where
  | idle
  | running (job : Job κ μ)
  | answering (ticket : Nat) (channel : κ)

def Slot.busy {κ μ : Type*} : Slot κ μ → Option (Nat × κ)
  | .idle => none
  | .running job => some (job.ticket, job.channel)
  | .answering ticket channel => some (ticket, channel)

@[ext]
structure State (κ μ : Type*) where
  next : Nat
  queue : List (Job κ μ)
  worker : Nat → Slot κ μ
  submitted : κ → List (Nat × μ)
  handled : κ → List (Nat × μ)
  replied : κ → List Nat
  gone : κ → Prop

def start (κ μ : Type*) : State κ μ where
  next := 0
  queue := []
  worker := fun _ => .idle
  submitted := fun _ => []
  handled := fun _ => []
  replied := fun _ => []
  gone := fun _ => False

section
variable {κ μ : Type*} [DecidableEq κ]

def push {α : Type*} (logs : κ → List α) (c : κ) (x : α) : κ → List α :=
  Function.update logs c (logs c ++ [x])

theorem push_self {α : Type*} (logs : κ → List α) (c : κ) (x : α) :
    push logs c x c = logs c ++ [x] :=
  Function.update_self ..

theorem push_other {α : Type*} {logs : κ → List α} {c c' : κ} {x : α} (other : c' ≠ c) :
    push logs c x c' = logs c' :=
  Function.update_of_ne other ..

theorem mem_push {α : Type*} {logs : κ → List α} {c c' : κ} {x y : α} :
    y ∈ push logs c x c' ↔ y ∈ logs c' ∨ c' = c ∧ y = x := by
  by_cases same : c' = c
  · subst same
    simp [push_self]
  · simp [push_other same, same]

theorem push_pairwise {α : Type*} {r : α → α → Prop} {logs : κ → List α} {c : κ} {x : α}
    (sorted : ∀ c', (logs c').Pairwise r) (last : ∀ a ∈ logs c, r a x) (c' : κ) :
    (push logs c x c').Pairwise r := by
  by_cases same : c' = c
  · subst same
    rw [push_self]
    apply List.pairwise_append.mpr
    refine ⟨sorted c', List.pairwise_singleton _ _, ?_⟩
    intro a old b new
    rw [List.mem_singleton.mp new]
    exact last a old
  · rw [push_other same]
    exact sorted c'

theorem push_of {ω α : Type*} {entry : ω → Option (κ × α)} {past : List ω} {o : ω} {e : κ × α}
    (found : entry o = some e) :
    (fun c => Trace.of entry c (past ++ [o])) = push (fun c => Trace.of entry c past) e.1 e.2 := by
  funext c
  rw [Trace.of_last found]
  by_cases same : c = e.1
  · rw [if_pos same, same, push_self]
  · rw [if_neg same, push_other same]

/-- What the workers may do, the earlier jobs of a channel before the later ones. -/
inductive Step (s : State κ μ) : State κ μ → Prop where
  | submit (c : κ) (body : μ) :
      Step s { s with
        next := s.next + 1
        queue := s.queue ++ [⟨s.next, c, body⟩]
        submitted := push s.submitted c (s.next, body) }
  | take {w : Nat} {job : Job κ μ} {rest : List (Job κ μ)} (idle : s.worker w = .idle)
      (front : s.queue = job :: rest) :
      Step s { s with queue := rest, worker := Function.update s.worker w (.running job) }
  | drop {w : Nat} {job : Job κ μ} (running : s.worker w = .running job)
      (gone : s.gone job.channel) :
      Step s { s with worker := Function.update s.worker w .idle }
  | handle {w : Nat} {job : Job κ μ} {slot : Slot κ μ} (running : s.worker w = .running job)
      (alive : ¬ s.gone job.channel)
      (first : ∀ w' job', w' ≠ w → s.worker w' = .running job' → job'.channel = job.channel →
        job.ticket ≤ job'.ticket)
      (after : slot = .idle ∨ slot = .answering job.ticket job.channel) :
      Step s { s with
        worker := Function.update s.worker w slot
        handled := push s.handled job.channel job.entry }
  | leave {w ticket : Nat} {c : κ} (answering : s.worker w = .answering ticket c) :
      Step s { s with worker := Function.update s.worker w .idle }
  | reply {w ticket : Nat} {c : κ} (answering : s.worker w = .answering ticket c)
      (first : ∀ w' ticket', w' ≠ w → (s.worker w').busy = some (ticket', c) → ticket ≤ ticket') :
      Step s { s with
        worker := Function.update s.worker w .idle
        replied := push s.replied c ticket }
  | lose {gone : κ → Prop} (more : ∀ c, s.gone c → gone c) : Step s { s with gone }

end

section
variable {κ μ : Type*}

/-- Tickets: every channel's are increasing, the queue's come after every worker's. -/
structure Numbered (s : State κ μ) : Prop where
  bounded : ∀ c, ∀ m ∈ s.submitted c, m.1 < s.next
  increasing : ∀ c, (s.submitted c).Pairwise fun a b => a.1 < b.1
  fifo : s.queue.Pairwise fun a b => a.ticket < b.ticket
  queued : ∀ job ∈ s.queue, job.entry ∈ s.submitted job.channel
  running : ∀ w job, s.worker w = .running job → job.entry ∈ s.submitted job.channel
  behind : ∀ w t, (s.worker w).busy = some t → t.1 < s.next ∧ ∀ job ∈ s.queue, t.1 < job.ticket
  single : ∀ w w' t t', (s.worker w).busy = some t → (s.worker w').busy = some t' →
    t.1 = t'.1 → w = w'

/-- Every submitted job was handled or is still to come. -/
structure Accounted (s : State κ μ) : Prop where
  order : ∀ c, s.handled c <+: s.submitted c
  queued : ∀ job ∈ s.queue, job.entry ∉ s.handled job.channel
  running : ∀ w job, s.worker w = .running job → job.entry ∉ s.handled job.channel
  pending : ∀ job : Job κ μ, job.entry ∈ s.submitted job.channel →
    job.entry ∈ s.handled job.channel ∨ job ∈ s.queue ∨ (∃ w, s.worker w = .running job) ∨
      s.gone job.channel

/-- The answers so far belong to handled jobs and come before every answer still to come. -/
structure Answered (s : State κ μ) : Prop where
  answering : ∀ w ticket c, s.worker w = .answering ticket c → ticket ∈ (s.handled c).map Prod.fst
  handled : ∀ c, ∀ ticket ∈ s.replied c, ticket ∈ (s.handled c).map Prod.fst
  increasing : ∀ c, (s.replied c).Pairwise (· < ·)
  queued : ∀ c, ∀ ticket ∈ s.replied c, ∀ job ∈ s.queue, ticket < job.ticket
  busy : ∀ c, ∀ ticket ∈ s.replied c, ∀ w ticket', (s.worker w).busy = some (ticket', c) →
    ticket < ticket'

structure Ordered (s : State κ μ) : Prop where
  numbered : Numbered s
  accounted : Accounted s
  answered : Answered s

theorem start_ordered : Ordered (start κ μ) := by
  refine ⟨⟨?_, ?_, ?_, ?_, ?_, ?_, ?_⟩, ⟨?_, ?_, ?_, ?_⟩, ⟨?_, ?_, ?_, ?_, ?_⟩⟩ <;>
    simp [start, Slot.busy]

theorem at_update {P : Nat → Slot κ μ → Prop} {worker : Nat → Slot κ μ} {w : Nat} {slot : Slot κ μ}
    (others : ∀ w', w' ≠ w → P w' (worker w')) (own : P w slot) (w' : Nat) :
    P w' (Function.update worker w slot w') := by
  by_cases same : w' = w
  · subst same
    rw [Function.update_self]
    exact own
  · rw [Function.update_of_ne same]
    exact others w' same

/-- A worker that ends a job: it is busy with nothing, or with its answer. -/
def Ends (old new : Slot κ μ) : Prop :=
  (∀ job, new ≠ .running job) ∧ (new.busy = none ∨ new.busy = old.busy)

theorem ends_idle (old : Slot κ μ) : Ends old .idle := ⟨by simp, Or.inl rfl⟩

theorem ends_answering {job : Job κ μ} {slot : Slot κ μ}
    (after : slot = .idle ∨ slot = .answering job.ticket job.channel) :
    Ends (.running job) slot := by
  rcases after with rfl | rfl
  · exact ends_idle _
  · exact ⟨by simp, Or.inr rfl⟩

/- What holds of every busy worker still holds when one of them ends its job. -/
theorem busy_ends {worker : Nat → Slot κ μ} {w : Nat} {slot : Slot κ μ}
    (ends : Ends (worker w) slot) {P : Nat → Nat × κ → Prop}
    (holds : ∀ w' t, (worker w').busy = some t → P w' t) :
    ∀ w' t, (Function.update worker w slot w').busy = some t → P w' t := by
  apply at_update (P := fun w' slot => ∀ t, slot.busy = some t → P w' t)
  · exact fun w' _ => holds w'
  · intro t busy
    rcases ends.2 with free | same
    · rw [free] at busy
      contradiction
    · exact holds w t (same ▸ busy)

theorem running_ends {worker : Nat → Slot κ μ} {w : Nat} {slot : Slot κ μ}
    (ends : Ends (worker w) slot) {P : Nat → Job κ μ → Prop}
    (holds : ∀ w' job, w' ≠ w → worker w' = .running job → P w' job) :
    ∀ w' job, Function.update worker w slot w' = .running job → P w' job := by
  apply at_update (P := fun w' slot => ∀ job, slot = .running job → P w' job)
  · exact fun w' other job here => holds w' job other here
  · intro job here
    exact absurd here (ends.1 job)

theorem running_update {worker : Nat → Slot κ μ} (w : Nat) (slot : Slot κ μ) {job : Job κ μ}
    (running : ∃ w', worker w' = .running job) :
    worker w = .running job ∨ ∃ w', Function.update worker w slot w' = .running job := by
  obtain ⟨w', here⟩ := running
  by_cases own : w' = w
  · left
    rw [← own]
    exact here
  · right
    refine ⟨w', ?_⟩
    rw [Function.update_of_ne own]
    exact here

theorem pending_update {s : State κ μ} (inv : Accounted s) (w : Nat) (slot : Slot κ μ)
    {job : Job κ μ} (mem : job.entry ∈ s.submitted job.channel) :
    s.worker w = .running job ∨ job.entry ∈ s.handled job.channel ∨ job ∈ s.queue ∨
      (∃ w', Function.update s.worker w slot w' = .running job) ∨ s.gone job.channel := by
  rcases inv.pending job mem with done | queued | running | gone
  · exact Or.inr (Or.inl done)
  · exact Or.inr (Or.inr (Or.inl queued))
  · rcases running_update w slot running with own | other
    · exact Or.inl own
    · exact Or.inr (Or.inr (Or.inr (Or.inl other)))
  · exact Or.inr (Or.inr (Or.inr (Or.inr gone)))

theorem Numbered.ends {s s' : State κ μ} (inv : Numbered s) {w : Nat} {slot : Slot κ μ}
    (ends : Ends (s.worker w) slot) (worker : s'.worker = Function.update s.worker w slot)
    (next : s'.next = s.next) (queue : s'.queue = s.queue)
    (submitted : s'.submitted = s.submitted) :
    Numbered s' := by
  obtain ⟨next', queue', worker', submitted', handled, replied, gone⟩ := s'
  subst worker next queue submitted
  refine ⟨inv.bounded, inv.increasing, inv.fifo, inv.queued, ?_, ?_, ?_⟩
  · exact running_ends ends fun w' job _ => inv.running w' job
  · exact busy_ends ends inv.behind
  · intro w₁ w₂ t t' first second same
    have one := busy_ends ends (P := fun w₁ t => ∀ w₂ t', (s.worker w₂).busy = some t' →
      t.1 = t'.1 → w₁ = w₂) (fun w₁ t here w₂ t' => inv.single w₁ w₂ t t' here) w₁ t first
    exact busy_ends ends (P := fun w₂ t' => t.1 = t'.1 → w₁ = w₂) one w₂ t' second same

theorem handled_bound {s : State κ μ} (numbered : Numbered s) (accounted : Accounted s) {c : κ}
    {ticket : Nat} (mem : ticket ∈ (s.handled c).map Prod.fst) : ticket < s.next := by
  obtain ⟨m, old, rfl⟩ := List.mem_map.mp mem
  exact numbered.bounded c m ((accounted.order c).subset old)

theorem Numbered.take {s : State κ μ} (inv : Numbered s) {w : Nat} {job : Job κ μ}
    {rest : List (Job κ μ)} (front : s.queue = job :: rest) :
    Numbered { s with
      queue := rest
      worker := Function.update s.worker w (.running job) } := by
  have first : job ∈ s.queue := by rw [front]; exact List.mem_cons_self
  have later (other : Job κ μ) (mem : other ∈ rest) : other ∈ s.queue := by
    rw [front]
    exact List.mem_cons_of_mem _ mem
  have sorted := inv.fifo
  rw [front] at sorted
  obtain ⟨least, sorted⟩ := List.pairwise_cons.mp sorted
  refine ⟨inv.bounded, inv.increasing, sorted, fun other mem =>
    inv.queued other (later other mem), ?_, ?_, ?_⟩
  · apply at_update (P := fun _ slot => ∀ job, slot = .running job →
      job.entry ∈ s.submitted job.channel)
    · exact fun w' _ => inv.running w'
    · intro other same
      obtain rfl := Slot.running.inj same
      exact inv.queued job first
  · apply at_update (P := fun _ slot => ∀ t, slot.busy = some t →
      t.1 < s.next ∧ ∀ job ∈ rest, t.1 < job.ticket)
    · intro w' _ t busy
      obtain ⟨bound, behind⟩ := inv.behind w' t busy
      exact ⟨bound, fun other mem => behind other (later other mem)⟩
    · intro t busy
      obtain rfl := Option.some.inj busy
      exact ⟨inv.bounded _ _ (inv.queued job first), least⟩
  · -- the ticket taken is behind all tickets that were taken before
    have fresh (w' : Nat) (t : Nat × κ) (busy : (s.worker w').busy = some t) :
        t.1 < job.ticket := (inv.behind w' t busy).2 job first
    apply at_update (P := fun w₁ slot => ∀ w₂ t t', slot.busy = some t →
      (Function.update s.worker w (.running job) w₂).busy = some t' → t.1 = t'.1 → w₁ = w₂)
    · intro w₁ _ w₂ t t' busy
      revert w₂
      apply at_update (P := fun w₂ slot => slot.busy = some t' → t.1 = t'.1 → w₁ = w₂)
      · exact fun w₂ _ busy' => inv.single w₁ w₂ t t' busy busy'
      · intro taken same
        obtain rfl := Option.some.inj taken
        exact absurd same (Nat.ne_of_lt (fresh w₁ t busy))
    · intro w₂ t t' taken
      obtain rfl := Option.some.inj taken
      revert w₂
      apply at_update (P := fun w₂ slot => slot.busy = some t' → job.ticket = t'.1 → w = w₂)
      · intro w₂ _ busy same
        exact absurd same.symm (Nat.ne_of_lt (fresh w₂ t' busy))
      · exact fun _ _ => rfl

theorem Accounted.take {s : State κ μ} (inv : Accounted s) {w : Nat} {job : Job κ μ}
    {rest : List (Job κ μ)} (idle : s.worker w = .idle) (front : s.queue = job :: rest) :
    Accounted { s with
      queue := rest
      worker := Function.update s.worker w (.running job) } := by
  have member (other : Job κ μ) : other ∈ s.queue ↔ other = job ∨ other ∈ rest := by
    rw [front, List.mem_cons]
  refine ⟨inv.order, fun other mem => inv.queued other ((member other).mpr (Or.inr mem)), ?_, ?_⟩
  · apply at_update (P := fun _ slot => ∀ job, slot = .running job →
      job.entry ∉ s.handled job.channel)
    · exact fun w' _ => inv.running w'
    · intro other same
      obtain rfl := Slot.running.inj same
      exact inv.queued job ((member job).mpr (Or.inl rfl))
  · intro other mem
    rcases pending_update inv w (.running job) mem with own | done | queued | rest
    · rw [idle] at own
      contradiction
    · exact Or.inl done
    · rcases (member other).mp queued with rfl | later
      · exact Or.inr (Or.inr (Or.inl ⟨w, Function.update_self ..⟩))
      · exact Or.inr (Or.inl later)
    · exact Or.inr (Or.inr rest)

theorem Answered.answering_update {s : State κ μ} (inv : Answered s) {slot : Slot κ μ}
    (other : ∀ ticket c, slot ≠ .answering ticket c) (w : Nat) :
    ∀ w' ticket c, Function.update s.worker w slot w' = .answering ticket c →
      ticket ∈ (s.handled c).map Prod.fst := by
  apply at_update (P := fun _ slot => ∀ ticket c, slot = .answering ticket c →
    ticket ∈ (s.handled c).map Prod.fst)
  · exact fun w' _ => inv.answering w'
  · intro ticket c here
    exact absurd here (other ticket c)

theorem Answered.busy_ends {s : State κ μ} (inv : Answered s) {w : Nat} {slot : Slot κ μ}
    (ends : Ends (s.worker w) slot) (c : κ) (ticket : Nat) (mem : ticket ∈ s.replied c)
    (w' ticket' : Nat) (here : (Function.update s.worker w slot w').busy = some (ticket', c)) :
    ticket < ticket' :=
  WorkerPool.busy_ends ends (P := fun _ t => t.2 = c → ticket < t.1)
    (fun w' t here same => inv.busy c ticket mem w' t.1 (by rw [here, ← same])) w' _ here rfl

theorem Answered.take {s : State κ μ} (inv : Answered s) {w : Nat} {job : Job κ μ}
    {rest : List (Job κ μ)} (front : s.queue = job :: rest) :
    Answered { s with
      queue := rest
      worker := Function.update s.worker w (.running job) } := by
  have first : job ∈ s.queue := by rw [front]; exact List.mem_cons_self
  refine ⟨inv.answering_update (by simp) w, inv.handled, inv.increasing, ?_, ?_⟩
  · intro c ticket mem other later
    exact inv.queued c ticket mem other (by rw [front]; exact List.mem_cons_of_mem _ later)
  · intro c ticket mem
    apply at_update (P := fun _ slot => ∀ ticket', slot.busy = some (ticket', c) →
      ticket < ticket')
    · exact fun w' _ => inv.busy c ticket mem w'
    · intro ticket' here
      obtain ⟨rfl, rfl⟩ := Prod.mk.inj (Option.some.inj here)
      exact inv.queued _ ticket mem job first

end

section
variable {κ μ : Type*} [DecidableEq κ] {s s' : State κ μ}

theorem Numbered.submit (inv : Numbered s) (c : κ) (body : μ) :
    Numbered { s with
      next := s.next + 1
      queue := s.queue ++ [⟨s.next, c, body⟩]
      submitted := push s.submitted c (s.next, body) } := by
  have queueBound : ∀ job ∈ s.queue, job.ticket < s.next :=
    fun job mem => inv.bounded job.channel job.entry (inv.queued job mem)
  refine ⟨?_, ?_, ?_, ?_, ?_, ?_, inv.single⟩
  · intro c' m mem
    rcases mem_push.mp mem with old | ⟨_, rfl⟩
    · exact Nat.lt_succ_of_lt (inv.bounded c' m old)
    · exact Nat.lt_succ_self _
  · exact push_pairwise inv.increasing (inv.bounded c)
  · apply List.pairwise_append.mpr
    refine ⟨inv.fifo, List.pairwise_singleton _ _, ?_⟩
    intro a old b new
    rw [List.mem_singleton.mp new]
    exact queueBound a old
  · intro job mem
    rcases List.mem_append.mp mem with old | new
    · exact mem_push.mpr (Or.inl (inv.queued job old))
    · rw [List.mem_singleton.mp new]
      exact mem_push.mpr (Or.inr ⟨rfl, rfl⟩)
  · intro w job running
    exact mem_push.mpr (Or.inl (inv.running w job running))
  · intro w t busy
    obtain ⟨bound, behind⟩ := inv.behind w t busy
    refine ⟨Nat.lt_succ_of_lt bound, ?_⟩
    intro job mem
    rcases List.mem_append.mp mem with old | new
    · exact behind job old
    · rw [List.mem_singleton.mp new]
      exact bound

theorem numbered_step (inv : Numbered s) (step : Step s s') : Numbered s' := by
  cases step with
  | submit c body => exact inv.submit c body
  | take idle front => exact inv.take front
  | drop running gone => exact inv.ends (ends_idle _) rfl rfl rfl rfl
  | handle running alive first after =>
    exact inv.ends (running ▸ ends_answering after) rfl rfl rfl rfl
  | leave answering => exact inv.ends (ends_idle _) rfl rfl rfl rfl
  | reply answering first => exact inv.ends (ends_idle _) rfl rfl rfl rfl
  | lose more =>
    exact ⟨inv.bounded, inv.increasing, inv.fifo, inv.queued, inv.running, inv.behind, inv.single⟩

/- A job that is handled when no worker has an earlier one is the next of its channel. -/
theorem handled_next (numbered : Numbered s) (inv : Accounted s) {w : Nat} {job : Job κ μ}
    (running : s.worker w = .running job) (alive : ¬ s.gone job.channel)
    (first : ∀ w' job', w' ≠ w → s.worker w' = .running job' → job'.channel = job.channel →
      job.ticket ≤ job'.ticket) (c : κ) :
    push s.handled job.channel job.entry c <+: s.submitted c := by
  by_cases same : c = job.channel
  · subst same
    rw [push_self]
    apply Trace.prefix_next (numbered.increasing _) (inv.order _) (numbered.running w job running)
      (inv.running w job running)
    intro m mem earlier
    rcases inv.pending ⟨m.1, job.channel, m.2⟩ mem with done | queued | ⟨w', other⟩ | gone
    · exact done
    · have behind := (numbered.behind w (job.ticket, job.channel) (by rw [running]; rfl)).2 _ queued
      exact absurd behind (Nat.lt_asymm earlier)
    · by_cases own : w' = w
      · subst own
        rw [running] at other
        have same := congrArg Job.ticket (Slot.running.inj other)
        exact absurd same (Nat.ne_of_gt earlier)
      · have least := first w' _ own other rfl
        exact absurd earlier (Nat.not_lt.mpr least)
    · exact absurd gone alive
  · rw [push_other same]
    exact inv.order c

theorem Accounted.submit (inv : Accounted s) (numbered : Numbered s) (c : κ) (body : μ) :
    Accounted { s with
      next := s.next + 1
      queue := s.queue ++ [⟨s.next, c, body⟩]
      submitted := push s.submitted c (s.next, body) } := by
  refine ⟨?_, ?_, inv.running, ?_⟩
  · intro c'
    by_cases same : c' = c
    · subst same
      simp only [push_self]
      exact (inv.order c').trans (List.prefix_append _ _)
    · simp only [push_other same]
      exact inv.order c'
  · intro job mem done
    rcases List.mem_append.mp mem with old | new
    · exact inv.queued job old done
    · rw [List.mem_singleton.mp new] at done
      have bound := handled_bound numbered inv (List.mem_map_of_mem done)
      exact absurd bound (Nat.lt_irrefl _)
  · intro job mem
    rcases mem_push.mp mem with old | ⟨same, new⟩
    · rcases inv.pending job old with done | queued | rest
      · exact Or.inl done
      · exact Or.inr (Or.inl (List.mem_append_left _ queued))
      · exact Or.inr (Or.inr rest)
    · obtain ⟨ticket, channel, body'⟩ := job
      obtain ⟨rfl, rfl⟩ := Prod.mk.inj new
      exact Or.inr (Or.inl (List.mem_append_right _ (List.mem_singleton.mpr (by rw [← same]))))

theorem Accounted.handle (inv : Accounted s) (numbered : Numbered s) {w : Nat} {job : Job κ μ}
    {slot : Slot κ μ} (running : s.worker w = .running job) (alive : ¬ s.gone job.channel)
    (first : ∀ w' job', w' ≠ w → s.worker w' = .running job' → job'.channel = job.channel →
      job.ticket ≤ job'.ticket)
    (after : slot = .idle ∨ slot = .answering job.ticket job.channel) :
    Accounted { s with
      worker := Function.update s.worker w slot
      handled := push s.handled job.channel job.entry } := by
  have busy : (s.worker w).busy = some (job.ticket, job.channel) := by rw [running]; rfl
  refine ⟨handled_next numbered inv running alive first, ?_, ?_, ?_⟩
  · intro other mem done
    rcases mem_push.mp done with old | ⟨_, same⟩
    · exact inv.queued other mem old
    · have behind := (numbered.behind w _ busy).2 other mem
      rw [(Prod.mk.inj same).1] at behind
      exact absurd behind (Nat.lt_irrefl _)
  · apply running_ends (P := fun _ other => other.entry ∉
      push s.handled job.channel job.entry other.channel) (running ▸ ends_answering after)
    intro w' other different here done
    rcases mem_push.mp done with old | ⟨_, same⟩
    · exact inv.running w' other here old
    · have one := numbered.single w' w _ _ (by rw [here]; rfl) busy (Prod.mk.inj same).1
      exact different one
  · intro other mem
    rcases pending_update inv w slot mem with own | done | rest
    · rw [running] at own
      obtain rfl := Slot.running.inj own
      exact Or.inl (mem_push.mpr (Or.inr ⟨rfl, rfl⟩))
    · exact Or.inl (mem_push.mpr (Or.inl done))
    · exact Or.inr rest

theorem accounted_step (numbered : Numbered s) (inv : Accounted s) (step : Step s s') :
    Accounted s' := by
  cases step with
  | submit c body => exact inv.submit numbered c body
  | take idle front => exact inv.take idle front
  | @drop w job running gone =>
    refine ⟨inv.order, inv.queued, running_ends (ends_idle _) fun w' job _ =>
      inv.running w' job, ?_⟩
    intro other mem
    rcases pending_update inv w .idle mem with own | rest
    · rw [running] at own
      obtain rfl := Slot.running.inj own
      exact Or.inr (Or.inr (Or.inr gone))
    · exact rest
  | handle running alive first after => exact inv.handle numbered running alive first after
  | leave answering | reply answering first =>
    refine ⟨inv.order, inv.queued, running_ends (ends_idle _) fun w' job _ =>
      inv.running w' job, ?_⟩
    intro other mem
    rcases pending_update inv _ .idle mem with own | rest
    · rw [answering] at own
      contradiction
    · exact rest
  | lose more =>
    refine ⟨inv.order, inv.queued, inv.running, ?_⟩
    intro job mem
    rcases inv.pending job mem with done | queued | running | gone
    · exact Or.inl done
    · exact Or.inr (Or.inl queued)
    · exact Or.inr (Or.inr (Or.inl running))
    · exact Or.inr (Or.inr (Or.inr (more _ gone)))

theorem Answered.handle (inv : Answered s) {w : Nat} {job : Job κ μ} {slot : Slot κ μ}
    (running : s.worker w = .running job)
    (after : slot = .idle ∨ slot = .answering job.ticket job.channel) :
    Answered { s with
      worker := Function.update s.worker w slot
      handled := push s.handled job.channel job.entry } := by
  have more {c : κ} {ticket : Nat} (old : ticket ∈ (s.handled c).map Prod.fst) :
      ticket ∈ (push s.handled job.channel job.entry c).map Prod.fst := by
    obtain ⟨m, mem, rfl⟩ := List.mem_map.mp old
    exact List.mem_map_of_mem (mem_push.mpr (Or.inl mem))
  refine ⟨?_, fun c ticket mem => more (inv.handled c ticket mem), inv.increasing, inv.queued,
    inv.busy_ends (running ▸ ends_answering after)⟩
  apply at_update (P := fun _ slot => ∀ ticket c, slot = .answering ticket c →
    ticket ∈ (push s.handled job.channel job.entry c).map Prod.fst)
  · exact fun w' _ ticket c here => more (inv.answering w' ticket c here)
  · intro ticket c here
    rcases after with rfl | rfl
    · contradiction
    · obtain ⟨rfl, rfl⟩ := Slot.answering.inj here
      rw [push_self]
      simp [Job.entry]

theorem Answered.reply (inv : Answered s) (numbered : Numbered s) {w ticket : Nat} {c : κ}
    (answering : s.worker w = .answering ticket c)
    (first : ∀ w' ticket', w' ≠ w → (s.worker w').busy = some (ticket', c) → ticket ≤ ticket') :
    Answered { s with
      worker := Function.update s.worker w .idle
      replied := push s.replied c ticket } := by
  have own : (s.worker w).busy = some (ticket, c) := by rw [answering]; rfl
  refine ⟨inv.answering_update (by simp) w, ?_, ?_, ?_, ?_⟩
  · intro c' t mem
    rcases mem_push.mp mem with old | ⟨rfl, rfl⟩
    · exact inv.handled c' t old
    · exact inv.answering w t c' answering
  · exact push_pairwise inv.increasing fun t mem => inv.busy c t mem w ticket own
  · intro c' t mem job queued
    rcases mem_push.mp mem with old | ⟨rfl, rfl⟩
    · exact inv.queued c' t old job queued
    · exact (numbered.behind w _ own).2 job queued
  · intro c' t mem
    rcases mem_push.mp mem with old | ⟨rfl, rfl⟩
    · exact inv.busy_ends (ends_idle _) c' t old
    · apply at_update (P := fun _ slot => ∀ ticket', slot.busy = some (ticket', c') → t < ticket')
      · intro w' other ticket' here
        have least := first w' ticket' other here
        have distinct : t ≠ ticket' := fun same =>
          other (numbered.single w' w _ _ here own same.symm)
        omega
      · intro ticket' here
        contradiction

theorem answered_step (numbered : Numbered s) (accounted : Accounted s) (inv : Answered s)
    (step : Step s s') : Answered s' := by
  cases step with
  | submit c body =>
    refine ⟨inv.answering, inv.handled, inv.increasing, ?_, inv.busy⟩
    intro c' ticket mem job queued
    rcases List.mem_append.mp queued with old | new
    · exact inv.queued c' ticket mem job old
    · rw [List.mem_singleton.mp new]
      exact handled_bound numbered accounted (inv.handled c' ticket mem)
  | take idle front => exact inv.take front
  | drop running gone | leave answering =>
    exact ⟨inv.answering_update (by simp) _, inv.handled, inv.increasing, inv.queued,
      inv.busy_ends (ends_idle _)⟩
  | handle running alive first after => exact inv.handle running after
  | reply answering first => exact inv.reply numbered answering first
  | lose more => exact ⟨inv.answering, inv.handled, inv.increasing, inv.queued, inv.busy⟩

theorem ordered_step (inv : Ordered s) (step : Step s s') : Ordered s' where
  numbered := numbered_step inv.numbered step
  accounted := accounted_step inv.numbered inv.accounted step
  answered := answered_step inv.numbered inv.accounted inv.answered step

theorem ordered_steps (inv : Ordered s) (steps : Relation.ReflTransGen Step s s') : Ordered s' := by
  induction steps with
  | refl => exact inv
  | tail _ step ih => exact ordered_step ih step

end

/-- The jobs of a channel take effect in the order they were submitted, none left out, and their
    answers come in that order. -/
theorem Ordered.in_order {κ μ : Type*} {s : State κ μ} (inv : Ordered s) (c : κ) :
    s.handled c <+: s.submitted c ∧ (s.replied c).Sublist ((s.handled c).map Prod.fst) := by
  have order := inv.accounted.order c
  have increasing : ((s.handled c).map Prod.fst).Pairwise (· < ·) :=
    List.pairwise_map.mpr ((inv.numbered.increasing c).sublist order.sublist)
  refine ⟨order, ?_⟩
  exact List.sublist_of_subperm_of_pairwise
    (List.subperm_of_subset ((inv.answered.increasing c).imp Nat.ne_of_lt) (inv.answered.handled c))
    (inv.answered.increasing c) increasing

/- What the workers have in hand. -/
section
variable {σ α : Type*}

def held (read : σ → Option α) (n : Nat) (slots : Nat → σ) : List α :=
  (List.range n).filterMap fun w => read (slots w)

theorem count_held_update [BEq α] (read : σ → Option α) (slots : Nat → σ) {n w : Nat} (real : w < n)
    (state : σ) (a : α) :
    (held read n (Function.update slots w state)).count a + (read (slots w)).toList.count a =
      (held read n slots).count a + (read state).toList.count a := by
  have single : (List.range n).Perm (w :: (List.range n).erase w) :=
    List.perm_cons_erase (List.mem_range.mpr real)
  have split (slots : Nat → σ) : (held read n slots).count a =
      (read (slots w)).toList.count a +
        (((List.range n).erase w).filterMap fun w' => read (slots w')).count a := by
    unfold held
    rw [(single.filterMap _).count_eq a, List.filterMap_cons, ← List.count_append]
    cases read (slots w) <;> rfl
  have others : (((List.range n).erase w).filterMap fun w' =>
      read (Function.update slots w state w')) =
        ((List.range n).erase w).filterMap fun w' => read (slots w') := by
    apply List.filterMap_congr
    intro w' mem
    have other := ((List.Nodup.mem_erase_iff List.nodup_range).mp mem).1
    rw [Function.update_of_ne other]
  rw [split, split, others, Function.update_self]
  omega

end

end WorkerPool
