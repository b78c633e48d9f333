import WebsocketServer.Library.Run
import WebsocketServer.Ws.Upgrade

/- The replay check over sequences of calls. The clock may be set at any time, so the readings
   are arbitrary. -/
namespace Upgrade

/-- A call of acceptNonce and what the system clock shows during it, in seconds. -/
structure NonceCall where
  now : Int64
  nonce : Bytes
  deriving DecidableEq

def NonceCall.stamp (call : NonceCall) : UInt64 := call.now.toUInt64

def present (seen : NonceTable) (call : NonceCall) : NonceTable × Bool :=
  ((acceptNonce call.stamp seen call.nonce).2, (acceptNonce call.stamp seen call.nonce).1)

abbrev Presented := Run.Taken NonceTable NonceCall Bool

def Presented.Accepts (t : Presented) (nonce : Bytes) : Prop :=
  t.output = true ∧ t.input.nonce = nonce

/-- The nonce was accepted at this second, and the purge of no call since has dropped it. -/
def Stored (history : List Presented) (nonce : Bytes) (stamp : UInt64) : Prop :=
  ∃ earlier t later, history = earlier ++ t :: later ∧ Presented.Accepts t nonce ∧
    t.input.stamp = stamp ∧ ∀ u ∈ later, u.input.stamp - stamp ≤ nonceTtl

theorem stored_step {history : List Presented} {t : Presented} {nonce : Bytes} {stamp : UInt64} :
    Stored (history ++ [t]) nonce stamp ↔
      (Presented.Accepts t nonce ∧ t.input.stamp = stamp) ∨
        (Stored history nonce stamp ∧ t.input.stamp - stamp ≤ nonceTtl) := by
  constructor
  · rintro ⟨earlier, a, later, shape, accepts, taken, kept⟩
    rcases List.eq_nil_or_concat later with rfl | ⟨later, last, rfl⟩
    · have same := List.append_inj_right' shape rfl
      obtain rfl := List.singleton_injective same
      exact .inl ⟨accepts, taken⟩
    · rw [List.concat_eq_append, ← List.cons_append, ← List.append_assoc] at shape
      obtain ⟨before, same⟩ := List.append_inj' shape rfl
      obtain rfl := List.singleton_injective same
      simp only [List.concat_eq_append, List.mem_append, List.mem_singleton] at kept
      exact .inr ⟨⟨earlier, a, later, before, accepts, taken, fun u mem => kept u (.inl mem)⟩,
        kept t (.inr rfl)⟩
  · rintro (⟨accepts, taken⟩ | ⟨⟨earlier, a, later, rfl, accepts, taken, kept⟩, last⟩)
    · exact ⟨history, t, [], rfl, accepts, taken, by simp⟩
    · refine ⟨earlier, a, later ++ [t], by simp, accepts, taken, ?_⟩
      intro u mem
      rcases List.mem_append.mp mem with before | here
      · exact kept u before
      · rw [List.mem_singleton.mp here]
        exact last

section
variable {now : UInt64} {seen : NonceTable} {nonce : Bytes}

theorem acceptNonce_accepts :
    (acceptNonce now seen nonce).1 = true ↔
      nonce ≠ [] ∧ ∀ stamp, (nonce, stamp) ∈ seen → ¬ now - stamp ≤ nonceTtl := by
  have found : ((seen.filter fun entry => !(now - entry.2 > nonceTtl)).any fun entry =>
      entry.1 == nonce) = true ↔ ∃ stamp, (nonce, stamp) ∈ seen ∧ now - stamp ≤ nonceTtl := by
    simp only [List.any_eq_true, List.mem_filter, gt_iff_lt, Bool.not_eq_true',
      decide_eq_false_iff_not, UInt64.not_lt, beq_iff_eq, Prod.exists]
    constructor
    · rintro ⟨_, stamp, ⟨mem, kept⟩, rfl⟩
      exact ⟨stamp, mem, kept⟩
    · rintro ⟨stamp, mem, kept⟩
      exact ⟨nonce, stamp, ⟨mem, kept⟩, rfl⟩
  simp only [acceptNonce]
  by_cases empty : nonce = []
  · simp [empty]
  · have nonempty : nonce.isEmpty = false := by simpa using empty
    rw [if_neg (by simp [nonempty])]
    by_cases known : ∃ stamp, (nonce, stamp) ∈ seen ∧ now - stamp ≤ nonceTtl
    · rw [if_pos (found.mpr known)]
      obtain ⟨stamp, mem, kept⟩ := known
      simp only [Bool.false_eq_true, false_iff, not_and]
      exact fun _ fresh => fresh stamp mem kept
    · rw [if_neg (fun h => known (found.mp h))]
      simp only [true_iff]
      exact ⟨empty, fun stamp mem kept => known ⟨stamp, mem, kept⟩⟩

theorem acceptNonce_table {other : Bytes} {stamp : UInt64} :
    (other, stamp) ∈ (acceptNonce now seen nonce).2 ↔
      ((acceptNonce now seen nonce).1 = true ∧ nonce = other ∧ now = stamp) ∨
        ((other, stamp) ∈ seen ∧ now - stamp ≤ nonceTtl) := by
  have purged : (other, stamp) ∈ seen.filter (fun entry => !(now - entry.2 > nonceTtl)) ↔
      (other, stamp) ∈ seen ∧ now - stamp ≤ nonceTtl := by
    simp only [List.mem_filter, gt_iff_lt, Bool.not_eq_true', decide_eq_false_iff_not,
      UInt64.not_lt]
  simp only [acceptNonce]
  split
  · rw [purged]
    simp
  · split
    · rw [purged]
      simp
    · simp only [List.mem_cons, Prod.mk.injEq, purged, true_and]
      rw [eq_comm (a := other), eq_comm (a := stamp)]

end

/-- The table holds exactly what the history has left in it. -/
def Tabulated (history : List Presented) (seen : NonceTable) : Prop :=
  ∀ nonce stamp, (nonce, stamp) ∈ seen ↔ Stored history nonce stamp

theorem present_tabulated (history : List Presented) (seen : NonceTable) (call : NonceCall)
    (tabulated : Tabulated history seen) :
    Tabulated (history ++ [⟨seen, call, (present seen call).1, (present seen call).2⟩])
      (present seen call).1 := by
  intro nonce stamp
  rw [stored_step, ← tabulated nonce stamp]
  simp only [present, acceptNonce_table, Presented.Accepts, and_assoc]

/-- A call accepts a nonce unless the history has left it in the table and the call's own purge
    does too. -/
theorem presented_accepts {calls : List NonceCall} {earlier later : List Presented} {t : Presented}
    (split : Run.steps present [] calls = earlier ++ t :: later) :
    t.output = true ↔ t.input.nonce ≠ [] ∧
      ∀ stamp, Stored earlier t.input.nonce stamp → ¬ t.input.stamp - stamp ≤ nonceTtl := by
  have empty : Tabulated [] [] := by
    intro nonce stamp
    simp [Stored]
  have before := Run.invariant_before Tabulated present_tabulated empty split
  have mem : t ∈ Run.steps present [] calls := by
    rw [split]
    simp
  have taken := (Run.steps_taken present mem).2
  rw [taken]
  simp only [present, acceptNonce_accepts, before _ _, List.nil_append]

/-- A call repeats a nonce that was accepted at most 300 seconds before or after its reading. -/
def Replay (earlier : List Presented) (t : Presented) : Prop :=
  ∃ a ∈ earlier, Presented.Accepts a t.input.nonce ∧
    (t.input.now.toInt - a.input.now.toInt).natAbs ≤ 300

/-- The nonce check over every sequence of calls: a replay is rejected in all of them exactly
    when no purge between the last acceptance of its nonce and the replay dropped the entry; the
    empty nonce is never accepted, and one that was never accepted before is. -/
theorem replays_rejected_exact (calls : List NonceCall) :
    ((∀ earlier t later, Run.steps present [] calls = earlier ++ t :: later → Replay earlier t →
        t.output = false) ↔
      ∀ earlier t later, Run.steps present [] calls = earlier ++ t :: later → Replay earlier t →
        ∃ stamp, Stored earlier t.input.nonce stamp ∧ t.input.stamp - stamp ≤ nonceTtl) ∧
    ∀ earlier t later, Run.steps present [] calls = earlier ++ t :: later →
      (t.input.nonce = [] → t.output = false) ∧
      (t.input.nonce ≠ [] → (∀ a ∈ earlier, ¬ Presented.Accepts a t.input.nonce) →
        t.output = true) := by
  constructor
  · constructor
    · intro rejected earlier t later split replay
      by_contra dropped
      have accepted : t.output = true := by
        rw [presented_accepts split]
        constructor
        · rintro empty
          obtain ⟨a, mem, accepts, _⟩ := replay
          obtain ⟨before, after, shape⟩ := List.append_of_mem mem
          have first : Run.steps present [] calls = before ++ a :: (after ++ t :: later) := by
            rw [split, shape, List.append_assoc, List.cons_append]
          have own := (presented_accepts first).mp accepts.1
          exact own.1 (accepts.2.trans empty)
        · exact fun stamp stored kept => dropped ⟨stamp, stored, kept⟩
      rw [rejected earlier t later split replay] at accepted
      contradiction
    · intro kept earlier t later split replay
      obtain ⟨stamp, stored, inside⟩ := kept earlier t later split replay
      by_contra accepted
      rw [Bool.not_eq_false, presented_accepts split] at accepted
      exact accepted.2 stamp stored inside
  · intro earlier t later split
    constructor
    · intro empty
      by_contra accepted
      rw [Bool.not_eq_false, presented_accepts split] at accepted
      exact accepted.1 empty
    · intro nonempty unknown
      rw [presented_accepts split]
      refine ⟨nonempty, ?_⟩
      rintro stamp ⟨before, a, after, shape, accepts, _⟩ _
      exact unknown a (shape ▸ by simp) accepts

theorem stamp_difference {a u : Int64} (after : a.toInt ≤ u.toInt)
    (near : u.toInt - a.toInt ≤ 300) : u.toUInt64 - a.toUInt64 ≤ nonceTtl := by
  have word (x : Int64) : x.toInt = if 2 * x.toUInt64.toNat < 2 ^ 64 then (x.toUInt64.toNat : Int)
      else (x.toUInt64.toNat : Int) - 2 ^ 64 := by
    rw [← Int64.toInt_toBitVec, BitVec.toInt_eq_toNat_cond]
    rfl
  have first := word a
  have second := word u
  have lower := a.toUInt64.toNat_lt
  have upper := u.toUInt64.toNat_lt
  have limit : nonceTtl.toNat = 300 := rfl
  rw [UInt64.le_iff_toNat_le, UInt64.toNat_sub, limit]
  split at first <;> split at second <;> omega

/- A clock that is never set back keeps every entry for as long as a replay can come. -/
theorem steady_clock_keeps {calls : List NonceCall} {earlier later : List Presented} {t : Presented}
    (steady : calls.Pairwise fun a b => a.now.toInt ≤ b.now.toInt)
    (split : Run.steps present [] calls = earlier ++ t :: later) (replay : Replay earlier t) :
    ∃ stamp, Stored earlier t.input.nonce stamp ∧ t.input.stamp - stamp ≤ nonceTtl := by
  rw [← Run.steps_inputs present [] calls, split, List.pairwise_map, List.pairwise_append] at steady
  obtain ⟨before, last, across⟩ := steady
  obtain ⟨a, mem, accepts, near⟩ := replay
  obtain ⟨first, rest, rfl⟩ := List.append_of_mem mem
  rw [List.pairwise_append, List.pairwise_cons] at before
  have kept (u : Presented) (here : u ∈ rest ∨ u = t) :
      u.input.stamp - a.input.stamp ≤ nonceTtl := by
    have later : a.input.now.toInt ≤ u.input.now.toInt := by
      rcases here with inside | rfl
      · exact before.2.1.1 u inside
      · exact across a mem u List.mem_cons_self
    have bound : u.input.now.toInt ≤ t.input.now.toInt := by
      rcases here with inside | rfl
      · exact across u (by simp [inside]) t List.mem_cons_self
      · exact le_refl _
    exact stamp_difference later (by omega)
  exact ⟨a.input.stamp, ⟨first, a, rest, rfl, accepts, rfl, fun u inside => kept u (.inl inside)⟩,
    kept t (.inr rfl)⟩

/- The clock goes back by one second, and the same nonce passes twice. -/
theorem replay_after_step_back :
    ¬ ∀ calls earlier t later, Run.steps present [] calls = earlier ++ t :: later →
      Replay earlier t → t.output = false := by
  intro claimed
  have rejected := claimed [⟨1000, [110]⟩, ⟨999, [110]⟩]
    [⟨[], ⟨1000, [110]⟩, [([110], 1000)], true⟩]
    ⟨[([110], 1000)], ⟨999, [110]⟩, [([110], 999)], true⟩ [] rfl
    ⟨_, List.mem_singleton_self _, ⟨rfl, rfl⟩, by decide⟩
  contradiction

end Upgrade
