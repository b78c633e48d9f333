import Mathlib

/- JavaScript on numbers that hold integers: the bitwise operators, byte arrays and the UTF-8 of a
   string. A BigInt that is not negative is a Nat. -/
namespace JavaScript

/- An operator works on the low 32 bits of its operands and takes its result as a signed word;
   only the result of >>> is unsigned. A shift is by the low five bits of its right operand. -/
def shiftLeft (x : Int) (n : UInt32) : Int := (UInt32.ofInt x <<< n).toInt32.toInt
def unsignedShiftRight (x : Int) (n : UInt32) : Int := ((UInt32.ofInt x >>> n).toNat : Nat)
def bitAnd (x y : Int) : Int := (UInt32.ofInt x &&& UInt32.ofInt y).toInt32.toInt
def bitOr (x y : Int) : Int := (UInt32.ofInt x ||| UInt32.ofInt y).toInt32.toInt
def bitXor (x y : Int) : Int := (UInt32.ofInt x ^^^ UInt32.ofInt y).toInt32.toInt

/-- new Uint8Array(n). -/
def zeros (n : Nat) : List UInt8 := List.replicate n 0

/-- u8[i]; outside of the array it is undefined, which an operator takes as 0. -/
def byteAt (u8 : List UInt8) (i : Nat) : Int := ((u8.getD i 0).toNat : Nat)

/-- u8[i] = x keeps the low byte of x; outside of the array it does nothing. -/
def store (u8 : List UInt8) (i : Nat) (x : Int) : List UInt8 := u8.set i (UInt8.ofInt x)

/-- u8.set(source, offset); none is the RangeError for a source that does not fit. -/
def setAt (u8 source : List UInt8) (offset : Nat) : Option (List UInt8) :=
  if offset + source.length > u8.length then none
  else some (u8.take offset ++ source ++ u8.drop (offset + source.length))

def subarray (u8 : List UInt8) (first last : Nat) : List UInt8 := (u8.take last).drop first

def isSurrogate (unit : UInt16) : Bool := 0xD800 ≤ unit && unit ≤ 0xDFFF

/-- One code unit alone; a surrogate is replaced. -/
def scalar (unit : UInt16) : Char :=
  if isSurrogate unit then Char.ofNat 0xFFFD else Char.ofNat unit.toNat

/-- The scalar values of a string, which is a list of UTF-16 code units. -/
def scalarValues : List UInt16 → List Char
  | [] => []
  | [unit] => [scalar unit]
  | unit :: next :: rest =>
      if 0xD800 ≤ unit ∧ unit ≤ 0xDBFF ∧ 0xDC00 ≤ next ∧ next ≤ 0xDFFF then
        Char.ofNat (0x10000 + (unit.toNat - 0xD800) * 0x400 + (next.toNat - 0xDC00)) ::
          scalarValues rest
      else scalar unit :: scalarValues (next :: rest)

/-- new TextEncoder().encode(string). -/
def textEncode (string : List UInt16) : List UInt8 :=
  (scalarValues string).flatMap String.utf8EncodeChar

example : textEncode [0x61, 0x4E2D, 0xD83D, 0xDE00, 0xD800] =
    [97, 228, 184, 173, 240, 159, 152, 128, 239, 191, 189] := by decide

theorem toNat_word (x : Int) : (UInt32.ofInt x).toNat = (x % 2 ^ 32).toNat := by
  have below : (x % 2 ^ 32).toNat < 2 ^ 32 := by omega
  rw [UInt32.ofInt, UInt32.toNat_ofNat', Nat.mod_eq_of_lt below]

theorem toNat_byte (x : Int) : (UInt8.ofInt x).toNat = (x % 2 ^ 8).toNat := by
  have below : (x % 2 ^ 8).toNat < 2 ^ 8 := by omega
  rw [UInt8.ofInt, UInt8.toNat_ofNat', Nat.mod_eq_of_lt below]

theorem signed_eq (w : UInt32) : w.toInt32.toInt = (w.toNat : Int).bmod (2 ^ 32) := by
  rw [← Int32.toInt_toBitVec, UInt32.toBitVec_toInt32, BitVec.toInt_eq_toNat_bmod,
    UInt32.toNat_toBitVec]

@[simp] theorem word_signed (w : UInt32) : UInt32.ofInt w.toInt32.toInt = w := by
  have below := w.toNat_lt
  have same : w.toInt32.toInt % 2 ^ 32 = w.toNat := by
    rw [signed_eq]
    exact (Int.bmod_emod ..).trans (by omega)
  apply UInt32.toNat_inj.mp
  rw [toNat_word, same, Int.toNat_natCast]

@[simp] theorem word_nat (n : Nat) : UInt32.ofInt (n : Int) = UInt32.ofNat n := by
  apply UInt32.toNat_inj.mp
  rw [toNat_word, UInt32.toNat_ofNat']
  omega

theorem signed_small {w : UInt32} (small : w.toNat < 2 ^ 31) : w.toInt32.toInt = w.toNat := by
  rw [signed_eq, Int.bmod]
  split <;> omega

@[simp] theorem word_bitXor (x y : Int) :
    UInt32.ofInt (bitXor x y) = UInt32.ofInt x ^^^ UInt32.ofInt y :=
  word_signed _

@[simp] theorem word_bitAnd (x y : Int) :
    UInt32.ofInt (bitAnd x y) = UInt32.ofInt x &&& UInt32.ofInt y :=
  word_signed _

@[simp] theorem word_unsignedShiftRight (x : Int) (n : UInt32) :
    UInt32.ofInt (unsignedShiftRight x n) = UInt32.ofInt x >>> n := by
  rw [unsignedShiftRight, word_nat, UInt32.ofNat_toNat]

/- What an operator returns is falsy exactly when its word is zero. -/
theorem signed_zero (w : UInt32) : w.toInt32.toInt = 0 ↔ w = 0 := by
  constructor
  · intro zero
    rw [← word_signed w, zero]
    rfl
  · rintro rfl
    rfl

@[simp] theorem byte_nat (n : Nat) : UInt8.ofInt (n : Int) = UInt8.ofNat n := by
  apply UInt8.toNat_inj.mp
  rw [toNat_byte, UInt8.toNat_ofNat']
  omega

@[simp] theorem word_byteAt (u8 : List UInt8) (i : Nat) :
    UInt32.ofInt (byteAt u8 i) = (u8.getD i 0).toUInt32 := by
  have below := (u8.getD i 0).toNat_lt
  apply UInt32.toNat_inj.mp
  rw [toNat_word, byteAt, UInt8.toNat_toUInt32]
  omega

@[simp] theorem byte_signed (w : UInt32) : UInt8.ofInt w.toInt32.toInt = w.toUInt8 := by
  have word := toNat_word w.toInt32.toInt
  rw [word_signed] at word
  apply UInt8.toNat_inj.mp
  rw [toNat_byte, UInt32.toNat_toUInt8, word]
  omega

theorem byte_low (x : Int) :
    UInt8.ofInt (bitAnd x 0xff) = UInt8.ofNat ((UInt32.ofInt x).toNat &&& 0xff) := by
  have mask : UInt32.ofInt 0xff = 0xff := rfl
  rw [bitAnd, byte_signed, mask]
  apply UInt8.toNat_inj.mp
  rw [UInt32.toNat_toUInt8, UInt32.toNat_and, UInt8.toNat_ofNat']
  rfl

theorem byte_shifted (x : Int) {n : UInt32} (small : n.toNat < 32) :
    UInt8.ofInt (bitAnd (unsignedShiftRight x n) 0xff) =
      UInt8.ofNat ((UInt32.ofInt x).toNat >>> n.toNat &&& 0xff) := by
  rw [byte_low, unsignedShiftRight, word_nat, UInt32.ofNat_toNat, UInt32.toNat_shiftRight,
    Nat.mod_eq_of_lt small]

theorem store_append (front rest : List UInt8) (b : UInt8) (x : Int) :
    store (front ++ b :: rest) front.length x = front ++ UInt8.ofInt x :: rest := by
  simp [store]

end JavaScript
