import Mathlib

/- Unsigned big-endian numerals over bytes, most significant byte first. -/
namespace BigEndian

/-- One step of the usual reading loop: v = (v << 8) | b. -/
def shiftIn (v : Nat) (b : UInt8) : Nat := (v <<< 8) ||| b.toNat

def value (bs : List UInt8) : Nat := bs.foldl shiftIn 0

/-- The n low-order bytes of v. Each byte is (v >> 8 i) & 0xFF. -/
def digits : Nat → Nat → List UInt8
  | 0, _ => []
  | n + 1, v => UInt8.ofNat ((v >>> (8 * n)) &&& 0xFF) :: digits n v

theorem shiftIn_eq (v : Nat) (b : UInt8) : shiftIn v b = v * 256 + b.toNat := by
  rw [shiftIn, ← Nat.shiftLeft_add_eq_or_of_lt b.toNat_lt, Nat.shiftLeft_eq]

theorem low_byte (v : Nat) : (UInt8.ofNat (v &&& 0xFF)).toNat = v % 256 := by
  have mask : v &&& 0xFF = v % 256 := Nat.and_two_pow_sub_one_eq_mod v 8
  simp [mask]

theorem foldl_value (bs : List UInt8) (v : Nat) :
    bs.foldl shiftIn v = v * 256 ^ bs.length + value bs := by
  induction bs generalizing v with
  | nil => simp [value]
  | cons b bs ih =>
    simp only [List.foldl_cons, List.length_cons, value]
    rw [ih, ih (shiftIn 0 b), shiftIn_eq, shiftIn_eq]
    ring

theorem value_cons (b : UInt8) (bs : List UInt8) :
    value (b :: bs) = b.toNat * 256 ^ bs.length + value bs := by
  rw [value, List.foldl_cons, foldl_value, shiftIn_eq, Nat.zero_mul, Nat.zero_add]

@[simp] theorem length_digits (n v : Nat) : (digits n v).length = n := by
  induction n with
  | zero => rfl
  | succ n ih => simp [digits, ih]

theorem value_digits_mod (n v : Nat) : value (digits n v) = v % 256 ^ n := by
  induction n with
  | zero => simp [digits, value, Nat.mod_one]
  | succ n ih =>
    have split : (2 : Nat) ^ (8 * n) = 256 ^ n := by rw [pow_mul]; norm_num
    rw [digits, value_cons, length_digits, low_byte, ih, Nat.shiftRight_eq_div_pow, split, pow_succ,
      Nat.mod_mul]
    ring

theorem value_digits {n v : Nat} (bound : v < 256 ^ n) : value (digits n v) = v := by
  rw [value_digits_mod, Nat.mod_eq_of_lt bound]

/- The writing loop may start at the low end. -/
theorem digits_snoc (n v : Nat) :
    digits (n + 1) v = digits n (v >>> 8) ++ [UInt8.ofNat (v &&& 0xFF)] := by
  induction n with
  | zero => simp [digits]
  | succ n ih =>
    rw [digits, ih, digits, List.cons_append, ← Nat.shiftRight_add, Nat.mul_succ, Nat.add_comm]

theorem value_snoc (bs : List UInt8) (b : UInt8) : value (bs ++ [b]) = shiftIn (value bs) b := by
  rw [value, List.foldl_append]
  rfl

theorem digits_value (bs : List UInt8) : digits bs.length (value bs) = bs := by
  induction bs using List.reverseRecOn with
  | nil => rfl
  | append_singleton bs b ih =>
    have bound := b.toNat_lt
    have high : shiftIn (value bs) b >>> 8 = value bs := by
      rw [shiftIn_eq, Nat.shiftRight_eq_div_pow]
      omega
    have low : UInt8.ofNat (shiftIn (value bs) b &&& 0xFF) = b := by
      rw [← UInt8.toNat_inj, low_byte, shiftIn_eq]
      omega
    rw [List.length_append, List.length_singleton, digits_snoc, value_snoc, high, low, ih]

theorem value_lt (bs : List UInt8) : value bs < 256 ^ bs.length := by
  have read := value_digits_mod bs.length (value bs)
  rw [digits_value] at read
  rw [read]
  exact Nat.mod_lt _ (by positivity)

theorem word_value (a b c d : UInt8) :
    (a.toUInt32 <<< 24 ||| b.toUInt32 <<< 16 ||| c.toUInt32 <<< 8 ||| d.toUInt32).toNat =
      value [a, b, c, d] := by
  have whole (x : UInt8) (n : Nat) (small : n ≤ 24) : x.toNat <<< n % 2 ^ 32 = x.toNat <<< n := by
    have bound := x.toNat_lt
    have power : 2 ^ n ≤ 2 ^ 24 := Nat.pow_le_pow_right (by decide) small
    apply Nat.mod_eq_of_lt
    rw [Nat.shiftLeft_eq]
    nlinarith
  simp only [UInt32.toNat_or, UInt32.toNat_shiftLeft, UInt8.toNat_toUInt32]
  simp only [value, shiftIn, List.foldl_cons, List.foldl_nil, Nat.zero_shiftLeft, Nat.zero_or,
    Nat.shiftLeft_or_distrib, ← Nat.shiftLeft_add]
  change a.toNat <<< 24 % 2 ^ 32 ||| b.toNat <<< 16 % 2 ^ 32 ||| c.toNat <<< 8 % 2 ^ 32 |||
      d.toNat =
    a.toNat <<< 24 ||| b.toNat <<< 16 ||| c.toNat <<< 8 ||| d.toNat
  rw [whole a 24 (by decide), whole b 16 (by decide), whole c 8 (by decide)]

end BigEndian
