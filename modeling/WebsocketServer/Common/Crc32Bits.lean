import WebsocketServer.Library.Crc
import WebsocketServer.Common.Crc32

/- The table-driven CRC32 is the bit-serial one, and so it sees every short burst. -/
namespace CRC32
open ReflectedCrc

def polynomial : BitVec 32 := 0xEDB88320#32

/-- The bits of a message in the order the register takes them. -/
def messageBits (data : Bytes) : List Bool := data.flatMap fun b => octetBits b.toBitVec

def bitSerial (data : Bytes) : UInt32 :=
  ⟨feedBits polynomial 0xFFFFFFFF#32 (messageBits data) ^^^ 0xFFFFFFFF#32⟩

theorem odd_bit (c : UInt32) : (c &&& 1 != 0) = c.toBitVec.getLsbD 0 := by
  have low : (c &&& 1).toNat = c.toNat % 2 := by
    rw [UInt32.toNat_and]
    exact Nat.and_one_is_mod c.toNat
  have bit : c.toBitVec.getLsbD 0 = decide (c.toNat % 2 = 1) := Nat.testBit_zero c.toNat
  have zero : c &&& 1 = 0 ↔ c.toNat % 2 = 0 := by rw [← UInt32.toNat_inj, low]; rfl
  rw [bit, bne, Bool.eq_iff_iff]
  simp only [Bool.not_eq_true', beq_eq_false_iff_ne, ne_eq, zero, decide_eq_true_eq]
  omega

theorem shiftStep_bits (c : UInt32) : (shiftStep c).toBitVec = shift polynomial c.toBitVec := by
  unfold shiftStep shift
  rw [odd_bit]
  split <;> rfl

theorem tableEntry_bits (i : UInt32) :
    (tableEntry i).toBitVec = (shift polynomial)^[8] i.toBitVec := by
  simp only [tableEntry, Nat.repeat, shiftStep_bits]
  rfl

theorem table_entry {n : Nat} (small : n < 256) :
    table_.getD n 0 = tableEntry (UInt32.ofNat n) := by
  simp [table_, List.getElem?_range small]

/- One step of the table is eight steps of the register. -/
theorem updateByte_bits (c : UInt32) (b : UInt8) :
    (updateByte c b).toBitVec = feedBits polynomial c.toBitVec (octetBits b.toBitVec) := by
  have small : ((c ^^^ b.toUInt32) &&& 0xFF).toNat < 256 := by
    rw [UInt32.toNat_and]
    exact Nat.lt_succ_of_le Nat.and_le_right
  have octet : lowOctet 32 = 0xFF#32 := by decide
  rw [updateByte, table_entry small, UInt32.ofNat_toNat, UInt32.toBitVec_xor, tableEntry_bits,
    feedBits_octet (by decide), octet]
  rfl

theorem update_bits (c : UInt32) (data : Bytes) :
    (update c data).toBitVec = feedBits polynomial c.toBitVec (messageBits data) := by
  induction data generalizing c with
  | nil => rfl
  | cons b data ih =>
    have rest := ih (updateByte c b)
    rw [messageBits, List.flatMap_cons, feedBits_append, ← updateByte_bits]
    exact rest

theorem checksum_bitSerial (data : Bytes) : checksum data = bitSerial data := by
  apply UInt32.toBitVec_inj.mp
  have bits := update_bits 0xFFFFFFFF data
  rw [checksum, UInt32.toBitVec_xor, ← update, bits]
  rfl

theorem update_blocks (c : UInt32) (blocks : List Bytes) :
    blocks.foldl update c = update c blocks.flatten := by
  induction blocks generalizing c with
  | nil => rfl
  | cons block blocks ih => rw [List.foldl_cons, ih, List.flatten_cons, update_append]

theorem checksum_blocks (blocks : List Bytes) :
    finish (blocks.foldl update reset) = checksum blocks.flatten := by
  rw [update_blocks, finish_update]

theorem length_messageBits (data : Bytes) : (messageBits data).length = 8 * data.length := by
  induction data with
  | nil => rfl
  | cons b data ih =>
    rw [messageBits, List.flatMap_cons, List.length_append, ← messageBits, ih, List.length_cons,
      length_octetBits]
    omega

/-- Bit j of byte i has position 8i+j. -/
def bitAt (data : Bytes) (k : Nat) : Bool := ((data.getD (k / 8) 0).toNat).testBit (k % 8)

theorem messageBits_get (data : Bytes) {k : Nat} (inside : k < (messageBits data).length) :
    (messageBits data)[k] = bitAt data k := by
  induction data generalizing k with
  | nil => simp [messageBits] at inside
  | cons b data ih =>
    have split : messageBits (b :: data) = octetBits b.toBitVec ++ messageBits data := rfl
    simp only [split, List.length_append, length_octetBits] at inside
    simp only [split, List.getElem_append, length_octetBits]
    split
    · have here : k / 8 = 0 ∧ k % 8 = k := by omega
      simp only [bitAt, here, List.getD_cons_zero, octetBits, List.getElem_map, List.getElem_range]
      rfl
    · have moved : k / 8 = (k - 8) / 8 + 1 ∧ k % 8 = (k - 8) % 8 := by omega
      rw [ih (show k - 8 < (messageBits data).length by omega)]
      simp only [bitAt, moved, List.getD_cons_succ]

/-- The differing bits lie within 32 consecutive positions, the first of which is p. -/
def Burst (p : Nat) (xs ys : Bytes) : Prop := ∀ k, bitAt xs k ≠ bitAt ys k → p ≤ k ∧ k < p + 32

theorem messageBits_injective : Function.Injective messageBits := by
  intro xs ys bits
  induction xs generalizing ys with
  | nil =>
    cases ys with
    | nil => rfl
    | cons y ys => simpa [length_messageBits] using congrArg List.length bits
  | cons x xs ih =>
    cases ys with
    | nil => simpa [length_messageBits] using congrArg List.length bits
    | cons y ys =>
      obtain ⟨first, rest⟩ := List.append_inj bits (by rw [length_octetBits, length_octetBits])
      rw [UInt8.toBitVec_inj.mp (octetBits_injective first), ih rest]

theorem checksum_burst {xs ys : Bytes} (same : xs.length = ys.length) (differ : xs ≠ ys) {p : Nat}
    (burst : Burst p xs ys) : checksum xs ≠ checksum ys := by
  intro agree
  have sizes : (messageBits xs).length = (messageBits ys).length := by
    rw [length_messageBits, length_messageBits, same]
  have window : ∀ i (hx : i < (messageBits xs).length) (hy : i < (messageBits ys).length),
      (messageBits xs)[i] ≠ (messageBits ys)[i] → p ≤ i ∧ i < p + 32 := by
    intro i hx hy other
    rw [messageBits_get, messageBits_get] at other
    exact burst i other
  have registers := burst_detected (show polynomial.getLsbD (32 - 1) = true by decide) sizes
    (fun bits => differ (messageBits_injective bits)) window 0xFFFFFFFF#32
  rw [checksum_bitSerial, checksum_bitSerial] at agree
  exact registers ((BitVec.xor_left_inj _).mp (congrArg UInt32.toBitVec agree))

end CRC32
