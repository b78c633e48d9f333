import Mathlib

/- Byte strings as the C and C++ standard libraries treat them: literals, stream output of
   unsigned integers, std::getline, tolower in the C locale and std::stoul. -/
abbrev Bytes := List UInt8

namespace CString

def bytes (s : String) : Bytes := s.toUTF8.data.toList

def digitByte (c : Char) : UInt8 := UInt8.ofNat c.toNat

/-- What operator<< prints for an unsigned integer. -/
def decimal (n : Nat) : Bytes := (Nat.toDigits 10 n).map digitByte

def isDigit (b : UInt8) : Bool := 48 ≤ b.toNat && b.toNat ≤ 57

def tolower (b : UInt8) : UInt8 := if 65 ≤ b.toNat ∧ b.toNat ≤ 90 then b + 32 else b

/-- Repeated std::getline on '\n': a last line without a terminator counts when it is nonempty. -/
def getLines : Bytes → List Bytes
  | [] => []
  | b :: rest =>
      if b = 10 then [] :: getLines rest
      else match getLines rest with
        | [] => [[b]]
        | line :: lines => (b :: line) :: lines

def isSpace (c : Char) : Bool := c = ' ' || (9 ≤ c.toNat && c.toNat ≤ 13)

/-- The digits strtoul converts: those after white space and one optional sign. -/
def stoulDigits (s : List Char) : List Char :=
  let s := s.dropWhile isSpace
  (if s.head? = some '-' ∨ s.head? = some '+' then s.tail else s).takeWhile Char.isDigit

/-- std::stoul in base 10 on a 64-bit platform; none when it throws. A minus sign negates
    modulo 2^64, as strtoul does. -/
def stoul (s : List Char) : Option Nat :=
  let v := Nat.ofDigitChars 10 (stoulDigits s) 0
  if stoulDigits s = [] ∨ v ≥ 2 ^ 64 then none
  else if (s.dropWhile isSpace).head? = some '-' then some ((2 ^ 64 - v) % 2 ^ 64)
  else some v

theorem stoul_lt {s : List Char} {v : Nat} (h : stoul s = some v) : v < 2 ^ 64 := by
  simp only [stoul] at h
  split at h
  · contradiction
  · rename_i parsed
    split at h
    · injection h with h
      subst h
      exact Nat.mod_lt _ (by decide)
    · injection h with h
      subst h
      simp only [not_or] at parsed
      omega

theorem digitByte_toNat {c : Char} (digit : c.isDigit) : (digitByte c).toNat = c.toNat := by
  simp only [Char.isDigit, Bool.and_eq_true, decide_eq_true_eq, ge_iff_le] at digit
  have upper : c.toNat ≤ 57 := digit.2
  simp only [digitByte, UInt8.toNat_ofNat']
  omega

theorem isDigit_digitByte {c : Char} (digit : c.isDigit) : isDigit (digitByte c) = true := by
  have value := digitByte_toNat digit
  simp only [Char.isDigit, Bool.and_eq_true, decide_eq_true_eq, ge_iff_le] at digit
  have lower : 48 ≤ c.toNat := digit.1
  have upper : c.toNat ≤ 57 := digit.2
  simp only [isDigit, value, Bool.and_eq_true, decide_eq_true_eq]
  omega

theorem decimal_digits {n : Nat} {b : UInt8} (member : b ∈ decimal n) : isDigit b = true := by
  obtain ⟨c, mem, rfl⟩ := List.mem_map.mp member
  exact isDigit_digitByte (Nat.isDigit_of_mem_toDigits (by decide) (by decide) mem)

theorem map_digitByte_injective {xs ys : List Char} (dx : ∀ c ∈ xs, c.isDigit)
    (dy : ∀ c ∈ ys, c.isDigit) (same : xs.map digitByte = ys.map digitByte) : xs = ys := by
  induction xs generalizing ys with
  | nil => simpa using same.symm
  | cons x xs ih =>
    cases ys with
    | nil => simp at same
    | cons y ys =>
      simp only [List.map_cons, List.cons.injEq] at same
      have code := congrArg UInt8.toNat same.1
      rw [digitByte_toNat (dx x (by simp)), digitByte_toNat (dy y (by simp))] at code
      have tail := ih (fun c h => dx c (by simp [h])) (fun c h => dy c (by simp [h])) same.2
      rw [tail, Char.toNat_inj.mp code]

theorem decimal_injective {m n : Nat} (same : decimal m = decimal n) : m = n := by
  have chars : Nat.toDigits 10 m = Nat.toDigits 10 n :=
    map_digitByte_injective
      (fun _ h => Nat.isDigit_of_mem_toDigits (by decide) (by decide) h)
      (fun _ h => Nat.isDigit_of_mem_toDigits (by decide) (by decide) h) same
  rw [← Nat.ofDigitChars_ten_toDigits (n := m), chars, Nat.ofDigitChars_ten_toDigits]

theorem decimal_ne_nil (n : Nat) : decimal n ≠ [] := by
  simp [decimal, Nat.toDigits_ne_nil]

theorem getLines_line {line : Bytes} (plain : ∀ b ∈ line, b ≠ 10) (rest : Bytes) :
    getLines (line ++ 10 :: rest) = line :: getLines rest := by
  induction line with
  | nil => rfl
  | cons b line ih =>
    have first := plain b List.mem_cons_self
    have tail := ih fun b member => plain b (List.mem_cons_of_mem _ member)
    simp [getLines, first, tail]

theorem find_byte {s : Bytes} {c : UInt8} (absent : ∀ b ∈ s, b ≠ c) (rest : Bytes) :
    (s ++ c :: rest).findIdx? (· == c) = some s.length := by
  have none : s.findIdx? (· == c) = none := by
    rw [List.findIdx?_eq_none_iff]
    intro b member
    simpa using absent b member
  rw [List.findIdx?_append]
  simp [none, List.findIdx?_cons]

/- A printed number followed by a byte that is no digit can be read back. -/
theorem takeWhile_decimal (n : Nat) (b : UInt8) (rest : List UInt8) (stop : isDigit b = false) :
    (decimal n ++ b :: rest).takeWhile isDigit = decimal n := by
  rw [List.takeWhile_append_of_pos (fun _ h => decimal_digits h),
    List.takeWhile_cons_of_neg (by simp [stop]), List.append_nil]

theorem decimal_prefix_injective {m n : Nat} {a b : UInt8} {xs ys : List UInt8}
    (sa : isDigit a = false) (sb : isDigit b = false)
    (same : decimal m ++ a :: xs = decimal n ++ b :: ys) : m = n ∧ a = b ∧ xs = ys := by
  have digits : decimal m = decimal n := by
    rw [← takeWhile_decimal m a xs sa, same, takeWhile_decimal n b ys sb]
  rw [digits, List.append_cancel_left_eq, List.cons.injEq] at same
  exact ⟨decimal_injective digits, same⟩

end CString
