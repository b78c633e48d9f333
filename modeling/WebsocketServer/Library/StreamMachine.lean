import Mathlib

/- Incremental decoders over an arbitrary alphabet. A machine looks at the unread
   input and asks for more, consumes a nonempty prefix, or stops for good. -/
namespace StreamMachine
variable {σ α ο ε : Type}

inductive Verdict (σ ο ε : Type) where
  | more : Verdict σ ο ε
  | take (used : Nat) (next : σ) (outs : List ο) : Verdict σ ο ε
  | stop (error : ε) : Verdict σ ο ε

/-- A verdict other than `more` is final: input that arrives later cannot revise it. -/
structure Machine (σ α ο ε : Type) where
  look : σ → List α → Verdict σ ο ε
  take_bound {s b n s' o} : look s b = .take n s' o → 0 < n ∧ n ≤ b.length
  take_grow {s b n s' o} (c : List α) : look s b = .take n s' o → look s (b ++ c) = .take n s' o
  stop_grow {s b e} (c : List α) : look s b = .stop e → look s (b ++ c) = .stop e

structure Outcome (σ α ο ε : Type) where
  state : σ
  rest : List α
  outs : List ο
  error : Option ε

def Outcome.prepend (o : List ο) (r : Outcome σ α ο ε) : Outcome σ α ο ε :=
  { r with outs := o ++ r.outs }

def runFuel (m : Machine σ α ο ε) : Nat → σ → List α → Outcome σ α ο ε
  | 0, s, b => ⟨s, b, [], none⟩
  | fuel + 1, s, b =>
      match m.look s b with
      | .more => ⟨s, b, [], none⟩
      | .take n s' o => (runFuel m fuel s' (b.drop n)).prepend o
      | .stop e => ⟨s, b, [], some e⟩

/-- Every round consumes at least one symbol, so one round more than the input is long suffices. -/
def run (m : Machine σ α ο ε) (s : σ) (b : List α) : Outcome σ α ο ε :=
  runFuel m (b.length + 1) s b

def feed (m : Machine σ α ο ε) (r : Outcome σ α ο ε) (piece : List α) : Outcome σ α ο ε :=
  match r.error with
  | some _ => r
  | none => (run m r.state (r.rest ++ piece)).prepend r.outs

def feedAll (m : Machine σ α ο ε) (r : Outcome σ α ο ε) (pieces : List (List α)) :
    Outcome σ α ο ε :=
  pieces.foldl (feed m) r

def start (s : σ) : Outcome σ α ο ε := ⟨s, [], [], none⟩

/-- What two runs that were cut differently must share: after an error only the unread
    input may differ. -/
def Agree (r q : Outcome σ α ο ε) : Prop :=
  r.outs = q.outs ∧ r.error = q.error ∧ (r.error = none → r = q)

@[simp] theorem prepend_nil (r : Outcome σ α ο ε) : r.prepend [] = r := rfl

theorem prepend_prepend (a b : List ο) (r : Outcome σ α ο ε) :
    (r.prepend b).prepend a = r.prepend (a ++ b) := by
  simp [Outcome.prepend]

theorem fuel_irrelevant (m : Machine σ α ο ε) (fuel extra : Nat) (s : σ) (b : List α)
    (enough : b.length < fuel) : runFuel m (fuel + extra) s b = runFuel m fuel s b := by
  induction fuel generalizing s b with
  | zero => omega
  | succ fuel ih =>
    rw [Nat.add_right_comm]
    simp only [runFuel]
    cases verdict : m.look s b with
    | more => rfl
    | stop e => rfl
    | take n s' o =>
      have bound := m.take_bound verdict
      simp only
      rw [ih s' (b.drop n) (by simp only [List.length_drop]; omega)]

theorem run_more (m : Machine σ α ο ε) {s : σ} {b : List α} (h : m.look s b = .more) :
    run m s b = ⟨s, b, [], none⟩ := by
  simp only [run, runFuel, h]

theorem run_stop (m : Machine σ α ο ε) {s : σ} {b : List α} {e : ε} (h : m.look s b = .stop e) :
    run m s b = ⟨s, b, [], some e⟩ := by
  simp only [run, runFuel, h]

theorem run_take (m : Machine σ α ο ε) {s s' : σ} {b : List α} {n : Nat} {o : List ο}
    (h : m.look s b = .take n s' o) : run m s b = (run m s' (b.drop n)).prepend o := by
  have bound := m.take_bound h
  have split : b.length = ((b.drop n).length + 1) + (n - 1) := by
    simp only [List.length_drop]; omega
  have once : run m s b = (runFuel m b.length s' (b.drop n)).prepend o := by
    simp only [run, runFuel, h]
  rw [once, split, fuel_irrelevant m _ _ _ _ (by omega)]
  rfl

theorem run_unit (m : Machine σ α ο ε) {s s' : σ} {unit : List α} {o : List ο} (rest : List α)
    (h : m.look s unit = .take unit.length s' o) :
    run m s (unit ++ rest) = (run m s' rest).prepend o := by
  rw [run_take m (m.take_grow rest h), List.drop_left]

theorem feed_live (m : Machine σ α ο ε) {r : Outcome σ α ο ε} (live : r.error = none)
    (piece : List α) : feed m r piece = (run m r.state (r.rest ++ piece)).prepend r.outs := by
  simp only [feed, live]

theorem feed_dead (m : Machine σ α ο ε) {r : Outcome σ α ο ε} {e : ε} (dead : r.error = some e)
    (piece : List α) : feed m r piece = r := by
  simp only [feed, dead]

theorem agree_refl (r : Outcome σ α ο ε) : Agree r r := ⟨rfl, rfl, fun _ => rfl⟩

theorem agree_trans {r q p : Outcome σ α ο ε} (h : Agree r q) (k : Agree q p) : Agree r p :=
  ⟨h.1.trans k.1, h.2.1.trans k.2.1,
    fun live => (h.2.2 live).trans (k.2.2 (h.2.1 ▸ live))⟩

theorem agree_symm {r q : Outcome σ α ο ε} (h : Agree r q) : Agree q r :=
  ⟨h.1.symm, h.2.1.symm, fun live => (h.2.2 (h.2.1.trans live)).symm⟩

theorem agree_prepend (o : List ο) {r q : Outcome σ α ο ε} (h : Agree r q) :
    Agree (r.prepend o) (q.prepend o) := by
  refine ⟨?_, h.2.1, ?_⟩
  · simp only [Outcome.prepend, h.1]
  · intro live
    rw [h.2.2 live]

/- Running on a longer input is running on the shorter one and then continuing. -/
theorem run_extend (m : Machine σ α ο ε) (s : σ) (b c : List α) :
    Agree (run m s (b ++ c)) (feed m (run m s b) c) := by
  induction len : b.length using Nat.strongRecOn generalizing s b with
  | ind k ih =>
    cases verdict : m.look s b with
    | more =>
      rw [run_more m verdict, feed_live m rfl]
      exact agree_refl _
    | stop e =>
      rw [run_stop m verdict, run_stop m (m.stop_grow c verdict), feed_dead m rfl]
      exact ⟨rfl, rfl, fun live => by simp at live⟩
    | take n s' o =>
      have bound := m.take_bound verdict
      have tail := ih (b.drop n).length (by simp only [List.length_drop]; omega) s' _ rfl
      rw [run_take m (m.take_grow c verdict), List.drop_append_of_le_length bound.2,
        run_take m verdict]
      refine agree_trans (agree_prepend o tail) ?_
      cases dead : (run m s' (b.drop n)).error with
      | some e =>
        rw [feed_dead m dead, feed_dead m (r := Outcome.prepend _ _) dead]
        exact agree_refl _
      | none =>
        rw [feed_live m dead, feed_live m (r := Outcome.prepend _ _) dead, prepend_prepend]
        exact agree_refl _

/- A machine that does not stop on an input does not stop on its beginning either, and has by
   then put out a beginning of what it puts out. -/
theorem run_begun (m : Machine σ α ο ε) {s : σ} {b c : List α}
    (live : (run m s (b ++ c)).error = none) :
    (run m s b).error = none ∧ (run m s b).outs <+: (run m s (b ++ c)).outs := by
  have agree := run_extend m s b c
  cases dead : (run m s b).error with
  | some e =>
    rw [feed_dead m dead] at agree
    rw [agree.2.1, dead] at live
    contradiction
  | none =>
    rw [feed_live m dead] at agree
    exact ⟨rfl, agree.1 ▸ List.prefix_append _ _⟩

theorem feed_agree (m : Machine σ α ο ε) {r q : Outcome σ α ο ε} (h : Agree r q)
    (piece : List α) : Agree (feed m r piece) (feed m q piece) := by
  cases dead : r.error with
  | some e => rwa [feed_dead m dead, feed_dead m (h.2.1 ▸ dead)]
  | none => rw [h.2.2 dead]; exact agree_refl _

theorem feed_append (m : Machine σ α ο ε) (r : Outcome σ α ο ε) (b c : List α) :
    Agree (feed m r (b ++ c)) (feed m (feed m r b) c) := by
  cases dead : r.error with
  | some e =>
    rw [feed_dead m dead, feed_dead m dead, feed_dead m dead]
    exact agree_refl _
  | none =>
    have step := agree_prepend r.outs (run_extend m r.state (r.rest ++ b) c)
    rw [feed_live m dead, feed_live m dead, ← List.append_assoc]
    refine agree_trans step ?_
    cases late : (run m r.state (r.rest ++ b)).error with
    | some e =>
      rw [feed_dead m late, feed_dead m (r := Outcome.prepend _ _) late]
      exact agree_refl _
    | none =>
      rw [feed_live m late, feed_live m (r := Outcome.prepend _ _) late, prepend_prepend]
      exact agree_refl _

theorem feedAll_agree (m : Machine σ α ο ε) (pieces : List (List α)) {r q : Outcome σ α ο ε}
    (h : Agree r q) : Agree (feedAll m r pieces) (feedAll m q pieces) := by
  induction pieces generalizing r q with
  | nil => exact h
  | cons piece pieces ih => exact ih (feed_agree m h piece)

/- However the input is cut, feeding the pieces is feeding the whole. -/
theorem feedAll_flatten (m : Machine σ α ο ε) (r : Outcome σ α ο ε) (first : List α)
    (pieces : List (List α)) :
    Agree (feedAll m (feed m r first) pieces) (feed m r (first ++ pieces.flatten)) := by
  induction pieces generalizing first with
  | nil =>
    simp only [feedAll, List.foldl_nil, List.flatten_nil, List.append_nil]; exact agree_refl _
  | cons piece pieces ih =>
    rw [List.flatten_cons, ← List.append_assoc]
    refine agree_trans ?_ (ih (first ++ piece))
    exact feedAll_agree m pieces (agree_symm (feed_append m r first piece))

theorem feed_empty (m : Machine σ α ο ε) {r : Outcome σ α ο ε}
    (waits : r.error = none → m.look r.state r.rest = .more) : feed m r [] = r := by
  cases dead : r.error with
  | some e => exact feed_dead m dead []
  | none =>
    rw [feed_live m dead, List.append_nil, run_more m (waits dead)]
    simp only [Outcome.prepend, List.append_nil, ← dead]

/- Any two ways of cutting the same input agree. -/
theorem cut_invariant (m : Machine σ α ο ε) {r : Outcome σ α ο ε}
    (waits : r.error = none → m.look r.state r.rest = .more) {xs ys : List (List α)}
    (same : xs.flatten = ys.flatten) : Agree (feedAll m r xs) (feedAll m r ys) := by
  have whole (zs : List (List α)) : Agree (feedAll m r zs) (feed m r zs.flatten) := by
    have h := feedAll_flatten m r [] zs
    rwa [feed_empty m waits, List.nil_append] at h
  exact agree_trans (whole xs) (same ▸ agree_symm (whole ys))

end StreamMachine
