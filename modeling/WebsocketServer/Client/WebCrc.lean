import WebsocketServer.Library.JavaScript
import WebsocketServer.Common.Crc32

/- The upload page's own CRC-32, in JavaScript's signed words. -/
namespace WebPage
open JavaScript CRC32

def tableStep (c : Int) : Int :=
  if bitAnd c 1 ≠ 0 then bitXor 0xEDB88320 (unsignedShiftRight c 1) else unsignedShiftRight c 1

/-- A Uint32Array keeps its elements unsigned. -/
def CRC_TABLE : List UInt32 :=
  (List.range 256).map fun i : Nat =>
    UInt32.ofInt (unsignedShiftRight (Nat.repeat tableStep 8 (i : Int)) 0)

def crc32Step (crc : Int) (b : UInt8) : Int :=
  bitXor ((CRC_TABLE.getD (bitAnd (bitXor crc b.toNat) 0xff).toNat 0).toNat : Nat)
    (unsignedShiftRight crc 8)

def crc32Bytes (u8 : Bytes) : Int :=
  unsignedShiftRight (bitXor (u8.foldl crc32Step 0xFFFFFFFF) 0xffffffff) 0

theorem tableStep_word (c : Int) : UInt32.ofInt (tableStep c) = shiftStep (UInt32.ofInt c) := by
  have one : UInt32.ofInt 1 = 1 := rfl
  have zero : bitAnd c 1 = 0 ↔ UInt32.ofInt c &&& 1 = 0 := by rw [bitAnd, signed_zero, one]
  unfold tableStep shiftStep
  by_cases even : bitAnd c 1 = 0
  · simp [even, zero.mp even]
  · have odd := mt zero.mpr even
    simp only [ne_eq, even, not_false_eq_true, ↓reduceIte, word_bitXor, word_unsignedShiftRight,
      bne_iff_ne, odd]
    rfl

theorem tableStep_repeat (n : Nat) (c : Int) :
    UInt32.ofInt (Nat.repeat tableStep n c) = Nat.repeat shiftStep n (UInt32.ofInt c) := by
  induction n with
  | zero => rfl
  | succ n ih => rw [Nat.repeat, Nat.repeat, tableStep_word, ih]

theorem CRC_TABLE_eq : CRC_TABLE = table_ := by
  unfold CRC_TABLE table_
  refine List.map_congr_left ?_
  intro i _
  rw [word_unsignedShiftRight, tableStep_repeat, word_nat, tableEntry]
  exact UInt32.shiftRight_zero

/- The index is a byte, whatever the sign of the register. -/
theorem byte_index (x : Int) : (bitAnd x 0xff).toNat = (UInt32.ofInt x &&& 0xFF).toNat := by
  have mask : UInt32.ofInt 0xff = 0xFF := rfl
  have small : (UInt32.ofInt x &&& 0xFF).toNat ≤ 0xFF := by
    rw [UInt32.toNat_and]
    exact Nat.and_le_right
  rw [bitAnd, mask, signed_small (by omega), Int.toNat_natCast]

theorem crc32Step_word (crc : Int) (b : UInt8) :
    UInt32.ofInt (crc32Step crc b) = updateByte (UInt32.ofInt crc) b := by
  have octet : UInt32.ofNat b.toNat = b.toUInt32 := by
    apply UInt32.toNat_inj.mp
    rw [UInt32.toNat_ofNat', UInt8.toNat_toUInt32]
    exact Nat.mod_eq_of_lt (b.toNat_lt.trans (by decide))
  rw [crc32Step, word_bitXor, word_nat, UInt32.ofNat_toNat, word_unsignedShiftRight, byte_index,
    word_bitXor, word_nat, CRC_TABLE_eq, octet, updateByte]

theorem crc32Step_words (u8 : Bytes) (crc : Int) :
    UInt32.ofInt (u8.foldl crc32Step crc) = update (UInt32.ofInt crc) u8 := by
  induction u8 generalizing crc with
  | nil => rfl
  | cons b u8 ih =>
    have rest := ih (crc32Step crc b)
    rw [crc32Step_word] at rest
    exact rest

theorem crc32Bytes_eq (u8 : Bytes) : crc32Bytes u8 = (checksum u8).toNat := by
  have register := crc32Step_words u8 0xFFFFFFFF
  rw [crc32Bytes, unsignedShiftRight, word_bitXor, register, UInt32.shiftRight_zero]
  rfl

end WebPage
