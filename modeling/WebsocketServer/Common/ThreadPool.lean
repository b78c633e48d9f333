import Mathlib

/-- The task queue of ThreadPool. A task is numbered by the value submitted_ had when it was
    pushed; the numbers only name tasks, no worker looks at them. -/
structure ThreadPool (τ : Type*) where
  tasks_ : List (Nat × τ)
  submitted_ : Nat
  fifo : tasks_.Pairwise fun a b => a.1 < b.1
  issued : ∀ task ∈ tasks_, task.1 < submitted_

namespace ThreadPool
variable {τ : Type*}

def empty : ThreadPool τ where
  tasks_ := []
  submitted_ := 0
  fifo := List.Pairwise.nil
  issued := by simp

def submit (pool : ThreadPool τ) (fn : τ) : ThreadPool τ where
  tasks_ := pool.tasks_ ++ [(pool.submitted_, fn)]
  submitted_ := pool.submitted_ + 1
  fifo := by
    simp only [List.pairwise_append, List.pairwise_singleton, List.mem_singleton, forall_eq,
      true_and]
    exact ⟨pool.fifo, pool.issued⟩
  issued := by
    intro task mem
    rcases List.mem_append.mp mem with old | new
    · have earlier := pool.issued task old
      omega
    · simp [List.mem_singleton.mp new]

/-- The front task, as workerLoop takes it under the lock. -/
def take (pool : ThreadPool τ) : Option ((Nat × τ) × ThreadPool τ) :=
  match queue : pool.tasks_ with
  | [] => none
  | task :: rest =>
      some (task,
        { tasks_ := rest
          submitted_ := pool.submitted_
          fifo := (List.pairwise_cons.mp (queue ▸ pool.fifo)).2
          issued := fun t mem => pool.issued t (queue ▸ List.mem_cons_of_mem task mem) })

theorem take_some {pool rest : ThreadPool τ} {task : Nat × τ}
    (taken : pool.take = some (task, rest)) :
    pool.tasks_ = task :: rest.tasks_ ∧ rest.submitted_ = pool.submitted_ := by
  unfold take at taken
  split at taken
  · contradiction
  · rename_i front later queue
    simp only [Option.some.injEq, Prod.mk.injEq] at taken
    obtain ⟨rfl, rfl⟩ := taken
    exact ⟨queue, rfl⟩

theorem take_none {pool : ThreadPool τ} (nothing : pool.take = none) : pool.tasks_ = [] := by
  unfold take at nothing
  split at nothing
  · assumption
  · contradiction

end ThreadPool
