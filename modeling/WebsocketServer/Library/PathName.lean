import Mathlib

/- File names by their text: names between separators, where "." and nothing at all stand for the
   place itself and ".." leaves it. Symbolic links are not looked at. -/
namespace PathName
variable {α : Type*} [DecidableEq α] (sep dot : α)

def Absolute (path : List α) : Prop := path.head? = some sep

def Climbs (path : List α) : Prop := [dot, dot] ∈ path.splitOn sep

def segments (path : List α) : List (List α) :=
  (path.splitOn sep).filter fun s => s ≠ [] ∧ s ≠ [dot]

/-- One separator stands between the two, unless there is one already or nothing in front. -/
def join (root rel : List α) : List α :=
  if root = [] ∨ root.getLast? = some sep then root ++ rel else root ++ sep :: rel

/-- The name leads to the place of the root or below it, and never out again. -/
structure Inside (root name : List α) : Prop where
  start : Absolute sep name ↔ Absolute sep root
  below : ∃ rest, segments sep dot name = segments sep dot root ++ rest ∧ [dot, dot] ∉ rest

theorem segments_nil : segments sep dot [] = [] := by simp [segments]

theorem segments_append (front back : List α) :
    segments sep dot (front ++ sep :: back) = segments sep dot front ++ segments sep dot back := by
  rw [segments, List.splitOn_append_cons_self, List.filter_append, segments, segments]

theorem segments_join (root rel : List α) :
    segments sep dot (join sep root rel) = segments sep dot root ++ segments sep dot rel := by
  by_cases empty : root = []
  · simp [join, empty, segments_nil]
  · by_cases closed : root.getLast? = some sep
    · obtain ⟨front, rfl⟩ := List.getLast?_eq_some_iff.mp closed
      have shape : front ++ [sep] ++ rel = front ++ sep :: rel := by simp
      rw [join, if_pos (.inr closed), shape, segments_append, segments_append, segments_nil,
        List.append_nil]
    · rw [join, if_neg (not_or.mpr ⟨empty, closed⟩), segments_append]

theorem absolute_join {root : List α} (filled : root ≠ []) (rel : List α) :
    Absolute sep (join sep root rel) ↔ Absolute sep root := by
  cases root with
  | nil => exact absurd rfl filled
  | cons b root =>
    unfold Absolute join
    split <;> simp

theorem join_injective (root : List α) : Function.Injective (join sep root) := by
  intro rel rel' same
  unfold join at same
  split at same
  · exact List.append_cancel_left same
  · exact (List.cons.inj (List.append_cancel_left same)).2

theorem segment_occurs {path s : List α} (member : s ∈ path.splitOn sep) : s <:+: path := by
  have stronger : (∀ s ∈ (path.splitOn sep).head?, s <+: path) ∧
      ∀ s ∈ path.splitOn sep, s <:+: path := by
    clear member
    induction path with
    | nil => simp
    | cons b path ih =>
      rw [List.splitOn_cons_eq_if_modifyHead]
      by_cases same : b = sep
      · simp only [same, beq_self_eq_true, ↓reduceIte, List.head?_cons, Option.mem_def,
          Option.some.injEq, forall_eq', List.nil_prefix, List.mem_cons, forall_eq_or_imp,
          List.nil_infix, true_and]
        exact fun s inside => List.infix_cons (ih.2 s inside)
      · cases parts : path.splitOn sep with
        | nil => exact absurd parts (List.splitOn_ne_nil sep path)
        | cons first later =>
          rw [parts] at ih
          have front : b :: first <+: b :: path :=
            (List.prefix_cons_inj b).mpr (ih.1 first rfl)
          simp only [beq_iff_eq, same, ↓reduceIte, List.modifyHead_cons, List.head?_cons,
            Option.mem_def, Option.some.injEq, forall_eq', List.mem_cons, forall_eq_or_imp]
          exact ⟨front, front.isInfix, fun s inside =>
            List.infix_cons (ih.2 s (List.mem_cons_of_mem _ inside))⟩
  exact stronger.2 s member

theorem inside_self (root : List α) : Inside sep dot root root :=
  ⟨Iff.rfl, [], (List.append_nil _).symm, List.not_mem_nil⟩

/- A joined name stays inside when what is joined to it is relative and does not climb. -/
theorem inside_join {root rel : List α} (anchored : root ≠ [] ∨ ¬ Absolute sep rel)
    (level : ¬ Climbs sep dot rel) : Inside sep dot root (join sep root rel) := by
  refine ⟨?_, segments sep dot rel, segments_join sep dot root rel, ?_⟩
  · by_cases empty : root = []
    · have relative := anchored.resolve_left (not_not.mpr empty)
      subst empty
      have none : ¬ Absolute sep ([] : List α) := by simp [Absolute]
      exact iff_of_false (by simpa [join] using relative) none
    · exact absolute_join sep empty rel
  · intro member
    exact level (List.mem_of_mem_filter member)

theorem absolute_outside {name : List α} (absolute : Absolute sep name) :
    ¬ Inside sep dot [] name := by
  intro inside
  have start := inside.start.mp absolute
  simp [Absolute] at start

end PathName
