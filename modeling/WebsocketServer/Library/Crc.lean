import Mathlib

/- Cyclic redundancy checks with the low bit first, over words of any width. The register is
   linear in its input and its update is injective, so a short burst is always seen. -/
namespace ReflectedCrc
variable {w : Nat}

/-- One step of the register: a one that falls out brings the polynomial in. -/
def shift (poly r : BitVec w) : BitVec w := if r.getLsbD 0 then poly ^^^ (r >>> 1) else r >>> 1

def unit (w : Nat) (b : Bool) : BitVec w := (BitVec.ofBool b).setWidth w

def feedBit (poly r : BitVec w) (b : Bool) : BitVec w := shift poly (r ^^^ unit w b)

def feedBits (poly r : BitVec w) (bits : List Bool) : BitVec w := bits.foldl (feedBit poly) r

def wordOf (w : Nat) : List Bool → BitVec w
  | [] => 0
  | b :: bits => unit w b ^^^ (wordOf w bits <<< 1)

theorem getLsbD_unit (b : Bool) (i : Nat) :
    (unit w b).getLsbD i = (decide (i = 0 ∧ 0 < w) && b) := by
  rw [unit, BitVec.getLsbD_setWidth, BitVec.getLsbD_ofBool]
  cases b <;> grind

@[simp] theorem unit_false : unit w false = 0#w := by simp [unit]

theorem unit_xor (a b : Bool) : unit w (a ^^ b) = unit w a ^^^ unit w b := by
  cases a <;> cases b <;> simp

theorem getLsbD_wordOf (bits : List Bool) {i : Nat} (inside : i < w) :
    (wordOf w bits).getLsbD i = bits.getD i false := by
  induction bits generalizing i with
  | nil => simp [wordOf]
  | cons b bits ih =>
    rw [wordOf, BitVec.getLsbD_xor, getLsbD_unit, BitVec.getLsbD_shiftLeft]
    cases i with
    | zero => simp [inside]
    | succ i =>
      have next := ih (show i < w by omega)
      simp [inside, next]

theorem shift_xor (poly a b : BitVec w) : shift poly (a ^^^ b) = shift poly a ^^^ shift poly b := by
  have moved : (a ^^^ b) >>> 1 = (a >>> 1) ^^^ (b >>> 1) := BitVec.ushiftRight_xor_distrib a b 1
  simp only [shift, BitVec.getLsbD_xor, moved]
  cases a.getLsbD 0 <;> cases b.getLsbD 0
  · simp
  · simp only [Bool.false_bne, Bool.false_eq_true, ↓reduceIte]
    ac_rfl
  · simp only [Bool.bne_false, Bool.false_eq_true, ↓reduceIte]
    ac_rfl
  · have cancel : poly ^^^ (a >>> 1) ^^^ (poly ^^^ (b >>> 1)) =
        (poly ^^^ poly) ^^^ ((a >>> 1) ^^^ (b >>> 1)) := by ac_rfl
    simp [cancel]

@[simp] theorem shift_zero (poly : BitVec w) : shift poly 0 = 0 := by simp [shift]

theorem iterate_xor (poly : BitVec w) (n : Nat) (a b : BitVec w) :
    (shift poly)^[n] (a ^^^ b) = (shift poly)^[n] a ^^^ (shift poly)^[n] b := by
  induction n generalizing a b with
  | zero => rfl
  | succ n ih => simp only [Function.iterate_succ_apply, shift_xor, ih]

theorem iterate_zero (poly : BitVec w) (n : Nat) : (shift poly)^[n] 0 = 0 := by
  induction n with
  | zero => rfl
  | succ n ih => rw [Function.iterate_succ_apply, shift_zero, ih]

/- A register whose low bits are clear only moves down. -/
theorem iterate_clear (poly : BitVec w) {r : BitVec w} {n : Nat}
    (clear : ∀ i < n, r.getLsbD i = false) : (shift poly)^[n] r = r >>> n := by
  induction n generalizing r with
  | zero => simp
  | succ n ih =>
    have once : shift poly r = r >>> 1 := by simp [shift, clear 0 (by omega)]
    have rest : ∀ i < n, (r >>> 1).getLsbD i = false := by
      intro i small
      rw [BitVec.getLsbD_ushiftRight]
      exact clear _ (by omega)
    rw [Function.iterate_succ_apply, once, ih rest, ← BitVec.shiftRight_add, Nat.add_comm]

theorem feedBits_append (poly r : BitVec w) (a b : List Bool) :
    feedBits poly r (a ++ b) = feedBits poly (feedBits poly r a) b :=
  List.foldl_append

theorem feedBits_xor (poly : BitVec w) (r q : BitVec w) {xs ys : List Bool}
    (same : xs.length = ys.length) :
    feedBits poly (r ^^^ q) (List.zipWith (· ^^ ·) xs ys) =
      feedBits poly r xs ^^^ feedBits poly q ys := by
  induction xs generalizing ys r q with
  | nil =>
    cases ys with
    | nil => rfl
    | cons y ys => simp at same
  | cons x xs ih =>
    cases ys with
    | nil => simp at same
    | cons y ys =>
      have step : feedBit poly (r ^^^ q) (x ^^ y) = feedBit poly r x ^^^ feedBit poly q y := by
        rw [feedBit, feedBit, feedBit, ← shift_xor, unit_xor]
        congr 1
        ac_rfl
      simp only [List.length_cons, Nat.add_right_cancel_iff] at same
      have rest := ih (feedBit poly r x) (feedBit poly q y) same
      rw [← step] at rest
      exact rest

theorem feedBits_word (poly r : BitVec w) {bits : List Bool} (fits : bits.length ≤ w) :
    feedBits poly r bits = (shift poly)^[bits.length] (r ^^^ wordOf w bits) := by
  induction bits generalizing r with
  | nil => simp [feedBits, wordOf]
  | cons b bits ih =>
    simp only [List.length_cons] at fits
    have clear : ∀ i < 1, (wordOf w bits <<< 1).getLsbD i = false := by
      intro i small
      simp [show i = 0 by omega]
    have back : wordOf w bits <<< 1 >>> 1 = wordOf w bits := by
      apply BitVec.eq_of_getLsbD_eq
      intro i inside
      rw [BitVec.getLsbD_ushiftRight, BitVec.getLsbD_shiftLeft]
      by_cases top : 1 + i < w
      · simp [top]
      · rw [getLsbD_wordOf bits inside, List.getD_eq_default _ _ (by omega)]
        simp [top]
    have moved : shift poly (wordOf w bits <<< 1) = wordOf w bits :=
      (iterate_clear poly clear).trans back
    have split : r ^^^ wordOf w (b :: bits) = (r ^^^ unit w b) ^^^ (wordOf w bits <<< 1) := by
      rw [wordOf, BitVec.xor_assoc]
    have rest := ih (feedBit poly r b) (by omega)
    rw [feedBits] at rest
    rw [feedBits, List.foldl_cons, rest, List.length_cons, Function.iterate_succ_apply, split,
      shift_xor, moved, feedBit]

theorem feedBits_zeros (poly r : BitVec w) (n : Nat) :
    feedBits poly r (List.replicate n false) = (shift poly)^[n] r := by
  induction n generalizing r with
  | zero => rfl
  | succ n ih =>
    have rest := ih (feedBit poly r false)
    rw [feedBits] at rest
    rw [feedBits, List.replicate_succ, List.foldl_cons, rest, Function.iterate_succ_apply, feedBit,
      unit_false, BitVec.xor_zero]

theorem differ_somewhere {xs ys : List Bool} (same : xs.length = ys.length) (differ : xs ≠ ys) :
    true ∈ List.zipWith (· ^^ ·) xs ys := by
  induction xs generalizing ys with
  | nil =>
    have empty := List.eq_nil_of_length_eq_zero same.symm
    exact absurd empty.symm differ
  | cons x xs ih =>
    cases ys with
    | nil => exact absurd same (by simp)
    | cons y ys =>
      rw [List.zipWith_cons_cons, List.mem_cons]
      by_cases head : x = y
      · have tail : xs ≠ ys := fun tail => differ (by rw [head, tail])
        exact .inr (ih (Nat.succ.inj same) tail)
      · left
        cases x <;> cases y <;> simp_all

/- Bits that are set in a window only are a burst between zeros. -/
theorem window_burst {d : List Bool} {p : Nat}
    (window : ∀ i (inside : i < d.length), d[i] = true → p ≤ i ∧ i < p + w) :
    ∃ before burst after, d = List.replicate before false ++
      (burst ++ List.replicate after false) ∧ burst.length ≤ w := by
  have front : ∀ b ∈ d.take p, b = false := by
    intro b member
    obtain ⟨i, inside, rfl⟩ := List.mem_iff_getElem.mp member
    simp only [List.length_take] at inside
    rw [List.getElem_take]
    by_contra bit
    have late := window i (by omega) (by simpa using bit)
    omega
  have back : ∀ b ∈ d.drop (p + w), b = false := by
    intro b member
    obtain ⟨i, inside, rfl⟩ := List.mem_iff_getElem.mp member
    simp only [List.length_drop] at inside
    rw [List.getElem_drop]
    by_contra bit
    have early := window (p + w + i) (by omega) (by simpa using bit)
    omega
  refine ⟨(d.take p).length, (d.drop p).take w, (d.drop (p + w)).length, ?_, by simp⟩
  rw [← List.eq_replicate_of_mem front, ← List.eq_replicate_of_mem back, ← List.drop_drop,
    List.take_append_drop, List.take_append_drop]

section
variable {poly : BitVec w} (top : poly.getLsbD (w - 1) = true)
include top

theorem shift_kernel {r : BitVec w} (vanishes : shift poly r = 0) : r = 0 := by
  unfold shift at vanishes
  split at vanishes
  · have same : poly = r >>> 1 := BitVec.xor_eq_zero_iff.mp vanishes
    rw [same, BitVec.getLsbD_ushiftRight, BitVec.getLsbD_of_ge r _ (by omega)] at top
    contradiction
  · rename_i low
    apply BitVec.eq_of_getLsbD_eq
    intro i inside
    cases i with
    | zero => simpa using low
    | succ i =>
      have bit := congrArg (fun x : BitVec w => x.getLsbD i) vanishes
      simpa [BitVec.getLsbD_ushiftRight, Nat.add_comm] using bit

theorem shift_injective : Function.Injective (shift poly) := by
  intro a b same
  have vanishes : shift poly (a ^^^ b) = 0 := by rw [shift_xor, same, BitVec.xor_self]; rfl
  exact BitVec.xor_eq_zero_iff.mp (shift_kernel top vanishes)

/- No burst of at most w bits leaves the register at zero. -/
theorem burst_seen {burst : List Bool} (short : burst.length ≤ w) (bit : true ∈ burst)
    (before after : Nat) :
    feedBits poly 0 (List.replicate before false ++ (burst ++ List.replicate after false)) ≠ 0 := by
  rw [feedBits_append, feedBits_append, feedBits_zeros, feedBits_zeros, iterate_zero,
    feedBits_word poly 0 short]
  intro vanishes
  have injective := (shift_injective top).iterate after
  have start := injective (vanishes.trans (iterate_zero poly after).symm)
  have word := ((shift_injective top).iterate burst.length) (start.trans (iterate_zero poly _).symm)
  obtain ⟨i, inside, is_set⟩ := List.mem_iff_getElem.mp bit
  have clear := congrArg (fun x : BitVec w => x.getLsbD i) word
  simp [getLsbD_wordOf burst (show i < w by omega), inside, is_set] at clear

/- Two inputs that differ in a window of w bits leave different registers. -/
theorem burst_detected {xs ys : List Bool} (same : xs.length = ys.length) (differ : xs ≠ ys)
    {p : Nat} (window : ∀ i (hx : i < xs.length) (hy : i < ys.length), xs[i] ≠ ys[i] →
      p ≤ i ∧ i < p + w) (r : BitVec w) : feedBits poly r xs ≠ feedBits poly r ys := by
  intro agree
  have linear := feedBits_xor poly r r same
  rw [agree, BitVec.xor_self, BitVec.xor_self] at linear
  have bit := differ_somewhere same differ
  have parts : ∃ before burst after, List.zipWith (· ^^ ·) xs ys =
      List.replicate before false ++ (burst ++ List.replicate after false) ∧ burst.length ≤ w := by
    apply window_burst
    intro i inside bit
    simp only [List.length_zipWith] at inside
    exact window i (by omega) (by omega) (by simpa using bit)
  obtain ⟨before, burst, after, shape, short⟩ := parts
  rw [shape] at linear bit
  simp only [List.mem_append, List.mem_replicate, Bool.true_eq_false, and_false, or_false,
    false_or] at bit
  exact burst_seen top short bit _ _ linear

end

/-- The bits of an octet, the low one first. -/
def octetBits (b : BitVec 8) : List Bool := (List.range 8).map fun i => b.getLsbD i

def lowOctet (w : Nat) : BitVec w := (BitVec.allOnes 8).setWidth w

theorem getLsbD_lowOctet (i : Nat) :
    (lowOctet w).getLsbD i = (decide (i < w) && decide (i < 8)) := by
  rw [lowOctet, BitVec.getLsbD_setWidth, BitVec.getLsbD_allOnes]

theorem wordOf_octet (b : BitVec 8) : wordOf w (octetBits b) = b.setWidth w := by
  apply BitVec.eq_of_getLsbD_eq
  intro i inside
  rw [getLsbD_wordOf _ inside, BitVec.getLsbD_setWidth]
  by_cases octet : i < 8
  · rw [List.getD_eq_getElem _ _ (by simpa [octetBits] using octet)]
    simp [octetBits, inside]
  · rw [List.getD_eq_default _ _ (by simp [octetBits]; omega), BitVec.getLsbD_of_ge b i (by omega)]
    simp

theorem octetBits_injective : Function.Injective octetBits := by
  intro a b same
  have word := congrArg (wordOf 8) same
  rw [wordOf_octet, wordOf_octet] at word
  simpa using word

@[simp] theorem length_octetBits (b : BitVec 8) : (octetBits b).length = 8 := by simp [octetBits]

/- Eight steps at once: the low octet goes through the table, the rest moves down. -/
theorem feedBits_octet (wide : 8 ≤ w) (poly r : BitVec w) (b : BitVec 8) :
    feedBits poly r (octetBits b) =
      (shift poly)^[8] ((r ^^^ b.setWidth w) &&& lowOctet w) ^^^ (r >>> 8) := by
  have octet := length_octetBits b
  have split (x : BitVec w) : (x &&& lowOctet w) ^^^ (x &&& ~~~ lowOctet w) = x := by
    apply BitVec.eq_of_getLsbD_eq
    intro i inside
    simp only [BitVec.getLsbD_xor, BitVec.getLsbD_and, BitVec.getLsbD_not, inside, decide_true,
      Bool.true_and]
    cases (lowOctet w).getLsbD i <;> simp
  have high : (shift poly)^[8] ((r ^^^ b.setWidth w) &&& ~~~ lowOctet w) = r >>> 8 := by
    rw [iterate_clear]
    · apply BitVec.eq_of_getLsbD_eq
      intro i inside
      simp only [BitVec.getLsbD_ushiftRight, BitVec.getLsbD_xor, BitVec.getLsbD_and,
        BitVec.getLsbD_not, BitVec.getLsbD_setWidth, getLsbD_lowOctet,
        BitVec.getLsbD_of_ge b (8 + i) (by omega)]
      by_cases top : 8 + i < w
      · simp [top]
      · rw [BitVec.getLsbD_of_ge r (8 + i) (by omega)]
        simp
    · intro i small
      simp [getLsbD_lowOctet, small, show i < w by omega]
  rw [feedBits_word poly r (by omega), octet, wordOf_octet, ← high, ← iterate_xor, split]

end ReflectedCrc
