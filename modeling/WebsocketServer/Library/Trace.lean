import Mathlib.Data.List.Basic

/- The order of events in a trace. -/
namespace Trace
variable {ω : Type*}

/-- Every event is justified by what came before it. -/
def Justified (J : List ω → ω → Prop) (trace : List ω) : Prop :=
  ∀ before o after, trace = before ++ o :: after → J before o

/-- The event came at a moment when none of the others had happened. -/
def Ahead (others : ω → Prop) (o : ω) (trace : List ω) : Prop :=
  ∃ before after, trace = before ++ o :: after ∧ ∀ a ∈ before, ¬ others a

theorem justified_nil (J : List ω → ω → Prop) : Justified J [] := by
  intro before o after same
  simp at same

theorem justified_append {J : List ω → ω → Prop} {past out : List ω} (holds : Justified J past)
    (new : ∀ before o after, out = before ++ o :: after → J (past ++ before) o) :
    Justified J (past ++ out) := by
  intro before o after same
  rcases List.append_eq_append_iff.mp same with ⟨mid, rfl, rest⟩ | ⟨mid, rfl, rest⟩
  · exact new mid o after rest
  · cases mid with
    | nil =>
      have here := new [] o after rest.symm
      simpa using here
    | cons first mid =>
      obtain ⟨rfl, _⟩ := List.cons.inj rest
      exact holds before o mid rfl

theorem Ahead.append {others : ω → Prop} {o : ω} {past : List ω} (ahead : Ahead others o past)
    (out : List ω) : Ahead others o (past ++ out) := by
  obtain ⟨before, after, rfl, none⟩ := ahead
  exact ⟨before, after ++ out, by simp, none⟩

theorem ahead_last {others : ω → Prop} {o : ω} {past : List ω} (none : ∀ a ∈ past, ¬ others a) :
    Ahead others o (past ++ [o]) :=
  ⟨past, [], rfl, none⟩

/- The next entry of an increasing list: a prefix grows by the entry all whose predecessors it
   already holds. -/
theorem prefix_next {α : Type*} {key : α → Nat} {done all : List α}
    (increasing : all.Pairwise fun a b => key a < key b) (start : done <+: all) {x : α}
    (mem : x ∈ all) (fresh : x ∉ done) (earlier : ∀ y ∈ all, key y < key x → y ∈ done) :
    done ++ [x] <+: all := by
  obtain ⟨rest, rfl⟩ := start
  have ahead : x ∈ rest := (List.mem_append.mp mem).resolve_left fresh
  cases rest with
  | nil => contradiction
  | cons first rest =>
    rcases List.mem_cons.mp ahead with rfl | later
    · exact ⟨rest, by simp⟩
    · obtain ⟨_, ordered, across⟩ := List.pairwise_append.mp increasing
      have less := (List.pairwise_cons.mp ordered).1 x later
      have old := earlier first (by simp) less
      have twice := across first old first List.mem_cons_self
      exact absurd twice (Nat.lt_irrefl _)

/- The entries that concern one channel. -/
section
variable {κ α : Type*} [DecidableEq κ] (entry : ω → Option (κ × α))

def of (c : κ) (trace : List ω) : List α :=
  trace.filterMap fun o => (entry o).bind fun e => if e.1 = c then some e.2 else none

theorem of_append (c : κ) (past out : List ω) :
    of entry c (past ++ out) = of entry c past ++ of entry c out :=
  List.filterMap_append

variable {entry}

theorem of_absent {out : List ω} (none : ∀ o ∈ out, entry o = none) (c : κ) :
    of entry c out = [] := by
  apply List.filterMap_eq_nil_iff.mpr
  intro o mem
  simp [none o mem]

theorem of_other {c : κ} {o : ω} (other : ∀ e, entry o = some e → e.1 ≠ c) :
    of entry c [o] = [] := by
  cases here : entry o with
  | none => simp [of, here]
  | some e => simp [of, here, other e here]

theorem of_silent {past out : List ω} (silent : ∀ o ∈ out, entry o = none) (c : κ) :
    of entry c (past ++ out) = of entry c past := by
  have none : of entry c out = [] := by
    apply List.filterMap_eq_nil_iff.mpr
    intro o mem
    simp [silent o mem]
  rw [of_append, none, List.append_nil]

theorem of_skip {past : List ω} {o : ω} (none : entry o = none) :
    (fun c => of entry c (past ++ [o])) = fun c => of entry c past := by
  funext c
  apply of_silent
  intro o' mem
  rw [List.mem_singleton.mp mem]
  exact none

theorem of_last {past : List ω} {o : ω} {e : κ × α} (found : entry o = some e) (c : κ) :
    of entry c (past ++ [o]) = if c = e.1 then of entry c past ++ [e.2] else of entry c past := by
  rw [of_append]
  by_cases same : c = e.1
  · simp [of, found, same]
  · simp [of, found, same, Ne.symm same]

end

end Trace
