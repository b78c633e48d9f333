import WebsocketServer.Library.Run

/- One driven system seen through another. Every step of the outer one passes some inputs on to
   the inner one: none, one or several. -/
namespace Run

section
variable {σ ι ο : Type*} (step : σ → ι → σ × ο)

theorem final_append (s : σ) (is later : List ι) :
    final step s (is ++ later) = final step (final step s is) later :=
  List.foldl_append

theorem steps_append (s : σ) (is later : List ι) :
    steps step s (is ++ later) = steps step s is ++ steps step (final step s is) later := by
  induction is generalizing s with
  | nil => rfl
  | cons i is ih =>
    simp only [List.cons_append, steps, List.cons_append, ih]
    rfl

end

section
variable {σ ι ο α κ ω : Type*} {step : σ → ι → σ × ο} {spec : α → κ → α × ω}
  {call : σ → ι → List κ} {R : σ → α → Prop} {view : σ → α}

def passed (step : σ → ι → σ × ο) (call : σ → ι → List κ) (s : σ) (is : List ι) : List κ :=
  (steps step s is).flatMap fun t => call t.before t.input

theorem passed_cons (s : σ) (i : ι) (is : List ι) :
    passed step call s (i :: is) = call s i ++ passed step call (step s i).1 is :=
  rfl

/-- Related states stay related when the inner system takes what a step passes on. -/
def Simulates (step : σ → ι → σ × ο) (spec : α → κ → α × ω) (call : σ → ι → List κ)
    (R : σ → α → Prop) : Prop :=
  ∀ s a i, R s a → R (step s i).1 (final spec a (call s i))

theorem Simulates.run (sim : Simulates step spec call R) {s : σ} {a : α} (related : R s a)
    (is : List ι) : R (final step s is) (final spec a (passed step call s is)) := by
  induction is generalizing s a with
  | nil => exact related
  | cons i is ih =>
    rw [passed_cons, final_append]
    exact ih (sim s a i related)

def Contains (step : σ → ι → σ × ο) (spec : α → κ → α × ω) (call : σ → ι → List κ)
    (view : σ → α) : Prop :=
  ∀ s i, view (step s i).1 = final spec (view s) (call s i)

theorem Contains.simulates (contains : Contains step spec call view) :
    Simulates step spec call fun s a => view s = a := by
  rintro s a i rfl
  exact contains s i

theorem Contains.final (contains : Contains step spec call view) (s : σ) (is : List ι) :
    view (final step s is) = Run.final spec (view s) (passed step call s is) :=
  contains.simulates.run rfl is

theorem Contains.steps (contains : Contains step spec call view) (s : σ) (is : List ι) :
    steps spec (view s) (passed step call s is) =
      (Run.steps step s is).flatMap fun t =>
        Run.steps spec (view t.before) (call t.before t.input) := by
  induction is generalizing s with
  | nil => rfl
  | cons i is ih =>
    rw [passed_cons, steps_append, ← contains s i, ih]
    rfl

end

section
variable {σ ι ω κ β : Type*} {step : σ → ι → σ × List ω} {call : σ → ι → List κ}

theorem trace_append (step : σ → ι → σ × List ω) (s : σ) (is later : List ι) :
    trace step s (is ++ later) = trace step s is ++ trace step (final step s is) later := by
  simp only [trace, steps_append, List.flatMap_append]

theorem trace_snoc (step : σ → ι → σ × List ω) (s : σ) (is : List ι) (i : ι) :
    trace step s (is ++ [i]) = trace step s is ++ (step (final step s is) i).2 := by
  rw [trace_append]
  simp only [trace, steps, List.flatMap_cons, List.flatMap_nil, List.append_nil]

theorem passed_reported {heard : κ → Option β} {seen : ω → Option β}
    (agree : ∀ s i, (call s i).filterMap heard = (step s i).2.filterMap seen) (s : σ)
    (is : List ι) :
    (passed step call s is).filterMap heard = (trace step s is).filterMap seen := by
  induction is generalizing s with
  | nil => rfl
  | cons i is ih =>
    have later := ih (step s i).1
    rw [passed_cons, List.filterMap_append, agree, later]
    simp only [trace, steps, List.flatMap_cons, List.filterMap_append]

end

end Run
