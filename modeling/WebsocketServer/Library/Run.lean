import Mathlib

/- Systems driven by inputs. One step takes the state and an input and returns the next state
   and an output; a run is a list of inputs. -/
namespace Run

structure Taken (σ ι ο : Type*) where
  before : σ
  input : ι
  after : σ
  output : ο

section
variable {σ ι ο : Type*} (step : σ → ι → σ × ο)

def steps : σ → List ι → List (Taken σ ι ο)
  | _, [] => []
  | s, i :: is => ⟨s, i, (step s i).1, (step s i).2⟩ :: steps (step s i).1 is

def final (s : σ) (is : List ι) : σ := is.foldl (fun s i => (step s i).1) s

/-- The states some run reaches from an initial state. -/
def Reachable (initial : σ → Prop) (s : σ) : Prop := ∃ s₀ is, initial s₀ ∧ final step s₀ is = s

/- Whatever every step conserves between what it is given, what it hands out and what stays
   pending is conserved by the run, in order. -/
theorem conserved {α : Type*} (pending : σ → List α) (given handed : ο → List α)
    (keeps : ∀ s i, pending s ++ given (step s i).2 = handed (step s i).2 ++ pending (step s i).1)
    (s : σ) (is : List ι) :
    pending s ++ (steps step s is).flatMap (fun t => given t.output) =
      (steps step s is).flatMap (fun t => handed t.output) ++ pending (final step s is) := by
  induction is generalizing s with
  | nil => simp [steps, final]
  | cons i is ih =>
    simp only [steps, List.flatMap_cons]
    calc
      _ = handed (step s i).2 ++ (pending (step s i).1 ++
            (steps step (step s i).1 is).flatMap fun t => given t.output) := by
        rw [← List.append_assoc, keeps, List.append_assoc]
      _ = _ := by
        rw [ih (step s i).1, ← List.append_assoc]
        rfl

theorem steps_inputs (s : σ) (is : List ι) : (steps step s is).map Taken.input = is := by
  induction is generalizing s with
  | nil => rfl
  | cons i is ih => simp only [steps, List.map_cons, ih]

theorem steps_taken {s : σ} {is : List ι} {t : Taken σ ι ο} (mem : t ∈ steps step s is) :
    t.after = (step t.before t.input).1 ∧ t.output = (step t.before t.input).2 := by
  induction is generalizing s with
  | nil => simp [steps] at mem
  | cons i is ih =>
    rcases List.mem_cons.mp mem with rfl | later
    · exact ⟨rfl, rfl⟩
    · exact ih later

theorem steps_behind {s : σ} {is : List ι} {earlier later : List (Taken σ ι ο)} {t : Taken σ ι ο}
    (split : steps step s is = earlier ++ t :: later) :
    ∃ rest, later = steps step t.after rest ∧ final step s is = final step t.after rest := by
  induction is generalizing s earlier with
  | nil => simp [steps] at split
  | cons i is ih =>
    cases earlier with
    | nil =>
      obtain ⟨rfl, rfl⟩ := List.cons.inj split
      exact ⟨is, rfl, rfl⟩
    | cons first earlier => exact ih (List.cons.inj split).2

variable {step}

/- An invariant that every allowed step keeps holds along a run of allowed steps. -/
theorem invariant_steps (Inv : σ → Prop) (Allowed : σ → ι → Prop)
    (keeps : ∀ s i, Inv s → Allowed s i → Inv (step s i).1) {s : σ} {is : List ι} (holds : Inv s)
    (allowed : ∀ t ∈ steps step s is, Allowed t.before t.input) :
    (∀ t ∈ steps step s is, Inv t.before) ∧ Inv (final step s is) := by
  induction is generalizing s with
  | nil => exact ⟨by simp [steps], holds⟩
  | cons i is ih =>
    simp only [steps, List.forall_mem_cons] at allowed ⊢
    obtain ⟨later, last⟩ := ih (keeps s i holds allowed.1) allowed.2
    exact ⟨⟨holds, later⟩, last⟩

theorem invariant_reachable {Inv initial : σ → Prop} (begins : ∀ s, initial s → Inv s)
    (keeps : ∀ s i, Inv s → Inv (step s i).1) {s : σ} (reachable : Reachable step initial s) :
    Inv s := by
  obtain ⟨s₀, is, init, rfl⟩ := reachable
  exact (invariant_steps Inv (fun _ _ => True) (fun s i h _ => keeps s i h) (begins s₀ init)
    (fun _ _ => trivial)).2

theorem Reachable.next {initial : σ → Prop} {s : σ} (reachable : Reachable step initial s) (i : ι) :
    Reachable step initial (step s i).1 := by
  obtain ⟨s₀, is, init, rfl⟩ := reachable
  refine ⟨s₀, is ++ [i], init, ?_⟩
  simp only [final, List.foldl_append, List.foldl_cons, List.foldl_nil]

/- An invariant may speak of the inputs taken so far. -/
theorem invariant_inputs (Inv : List ι → σ → Prop)
    (keeps : ∀ past s i, Inv past s → Inv (past ++ [i]) (step s i).1) {past : List ι} {s : σ}
    (is : List ι) (holds : Inv past s) : Inv (past ++ is) (final step s is) := by
  induction is generalizing past s with
  | nil =>
    rw [List.append_nil]
    exact holds
  | cons i is ih =>
    have later := ih (keeps past s i holds)
    rw [List.append_assoc, List.singleton_append] at later
    exact later

theorem invariant_history (Inv : List (Taken σ ι ο) → σ → Prop)
    (keeps : ∀ past s i, Inv past s →
      Inv (past ++ [⟨s, i, (step s i).1, (step s i).2⟩]) (step s i).1)
    {past : List (Taken σ ι ο)} {s : σ} (is : List ι) (holds : Inv past s) :
    Inv (past ++ steps step s is) (final step s is) := by
  induction is generalizing past s with
  | nil =>
    simp only [steps, List.append_nil]
    exact holds
  | cons i is ih =>
    have later := ih (keeps past s i holds)
    simp only [List.append_assoc, List.singleton_append] at later
    exact later

/- The same invariant, as it was before one of the steps. -/
theorem invariant_before (Inv : List (Taken σ ι ο) → σ → Prop)
    (keeps : ∀ past s i, Inv past s →
      Inv (past ++ [⟨s, i, (step s i).1, (step s i).2⟩]) (step s i).1)
    {past earlier later : List (Taken σ ι ο)} {t : Taken σ ι ο} {s : σ} {is : List ι}
    (holds : Inv past s) (split : steps step s is = earlier ++ t :: later) :
    Inv (past ++ earlier) t.before := by
  induction is generalizing past s earlier with
  | nil => simp [steps] at split
  | cons i is ih =>
    cases earlier with
    | nil =>
      obtain ⟨rfl, _⟩ := List.cons.inj split
      rw [List.append_nil]
      exact holds
    | cons first earlier =>
      obtain ⟨rfl, rest⟩ := List.cons.inj split
      have later := ih (keeps past s i holds) rest
      simp only [List.append_assoc, List.singleton_append] at later
      exact later

end

section
variable {σ ι ω : Type*} {step : σ → ι → σ × List ω}

def trace (step : σ → ι → σ × List ω) (s : σ) (is : List ι) : List ω :=
  (steps step s is).flatMap fun t => t.output

/- An invariant may speak of everything that was put out so far. -/
theorem invariant_trace (Inv : List ω → σ → Prop) (Allowed : σ → ι → Prop)
    (keeps : ∀ past s i, Inv past s → Allowed s i → Inv (past ++ (step s i).2) (step s i).1)
    {past : List ω} {s : σ} {is : List ι} (holds : Inv past s)
    (allowed : ∀ t ∈ steps step s is, Allowed t.before t.input) :
    Inv (past ++ trace step s is) (final step s is) := by
  induction is generalizing past s with
  | nil =>
    simp only [trace, steps, List.flatMap_nil, List.append_nil]
    exact holds
  | cons i is ih =>
    simp only [steps, List.forall_mem_cons] at allowed
    have later := ih (keeps past s i holds allowed.1) allowed.2
    simp only [trace, steps, List.flatMap_cons, ← List.append_assoc] at later ⊢
    exact later

end

end Run
