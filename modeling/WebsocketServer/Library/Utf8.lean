import Mathlib

/- Byte strings that are UTF-8, over the encoding of the core library: where they may be cut, and
   what may be taken out of them. -/
namespace Utf8

def Valid (s : List UInt8) : Prop := s.toByteArray.IsValidUTF8

def encode (cs : List Char) : List UInt8 := cs.flatMap String.utf8EncodeChar

/-- A byte that no character has behind its first one. -/
def Starts (b : UInt8) : Prop := b.IsUTF8FirstByte

instance (b : UInt8) : Decidable (Starts b) := inferInstanceAs (Decidable b.IsUTF8FirstByte)

theorem valid_encode {s : List UInt8} : Valid s ↔ ∃ cs, s = encode cs := by
  constructor
  · rintro ⟨cs, same⟩
    refine ⟨cs, ?_⟩
    have lists := congrArg (·.data.toList) same
    simpa [List.utf8Encode, encode] using lists
  · rintro ⟨cs, rfl⟩
    exact ⟨cs, rfl⟩

theorem valid_append {s t : List UInt8} (first : Valid s) (second : Valid t) : Valid (s ++ t) := by
  unfold Valid
  rw [List.toByteArray_append]
  exact first.append second

theorem valid_ascii {s : List UInt8} (ascii : ∀ b ∈ s, b < 128) : Valid s := by
  have one : ∀ n : Fin 128, [UInt8.ofNat n] = String.utf8EncodeChar (Char.ofNat n) := by
    decide +kernel
  induction s with
  | nil => exact valid_encode.mpr ⟨[], rfl⟩
  | cons b s ih =>
    have small : b.toNat < 128 := ascii b List.mem_cons_self
    have first := one ⟨b.toNat, small⟩
    rw [UInt8.ofNat_toNat] at first
    have alone : Valid [b] := valid_encode.mpr ⟨[Char.ofNat b.toNat], by simp [encode, first]⟩
    exact valid_append alone (ih fun c later => ascii c (List.mem_cons_of_mem _ later))

theorem extract_toByteArray (s : List UInt8) (i j : Nat) :
    s.toByteArray.extract i j = ((s.take j).drop i).toByteArray := by
  ext1
  simp [ByteArray.data_extract, List.drop_take]

/- A place in a valid string is between two characters when the next byte begins one. -/
theorem position_valid {s : List UInt8} (valid : Valid s) {n : Nat} (inside : n ≤ s.length) :
    String.Pos.Raw.IsValid ⟨s.toByteArray, valid⟩ ⟨n⟩ ↔ ∀ b, s[n]? = some b → Starts b := by
  have size : (⟨s.toByteArray, valid⟩ : String).rawEndPos = ⟨s.length⟩ := by
    simp [String.rawEndPos, String.utf8ByteSize]
  rw [String.Pos.Raw.isValid_iff_isUTF8FirstByte]
  simp only [size, String.Pos.Raw.mk.injEq, String.Pos.Raw.lt_iff, String.getUTF8Byte,
    List.getElem_toByteArray]
  by_cases last : n = s.length
  · simp [last]
  · have here : n < s.length := by omega
    simp [last, here, Starts]

theorem valid_take {s : List UInt8} (valid : Valid s) (n : Nat) :
    Valid (s.take n) ↔ ∀ b, s[n]? = some b → Starts b := by
  by_cases inside : n ≤ s.length
  · rw [← position_valid valid inside, String.Pos.Raw.isValid_iff_isValidUTF8_extract_zero]
    simp [String.Pos.Raw.le_iff, String.rawEndPos, String.utf8ByteSize, inside,
      extract_toByteArray, Valid]
  · rw [List.take_of_length_le (by omega), List.getElem?_eq_none (by omega)]
    simp [valid]

theorem char_bytes (c : Char) :
    (∃ b < 128, String.utf8EncodeChar c = [b]) ∨ ∀ b ∈ String.utf8EncodeChar c, 128 ≤ b := by
  have high {n mark : Nat} (marked : 128 ≤ mark) (room : n + mark < 256) :
      128 ≤ UInt8.ofNat (n + mark) := by
    rw [UInt8.le_iff_toNat_le, UInt8.toNat_ofNat', Nat.mod_eq_of_lt room]
    exact marked.trans (Nat.le_add_left _ _)
  unfold String.utf8EncodeChar
  generalize c.val.toNat = v
  by_cases small : v ≤ 0x7f
  · left
    refine ⟨UInt8.ofNat v, ?_, if_pos small⟩
    rw [UInt8.lt_iff_toNat_lt, UInt8.toNat_ofNat', Nat.mod_eq_of_lt (by omega)]
    exact Nat.lt_succ_of_le small
  · right
    simp only [small, ↓reduceIte]
    split
    · simp only [List.forall_mem_cons, List.not_mem_nil, false_implies, implies_true, and_true]
      exact ⟨high (by omega) (by omega), high (by omega) (by omega)⟩
    split
    · simp only [List.forall_mem_cons, List.not_mem_nil, false_implies, implies_true, and_true]
      exact ⟨high (by omega) (by omega), high (by omega) (by omega), high (by omega) (by omega)⟩
    · simp only [List.forall_mem_cons, List.not_mem_nil, false_implies, implies_true, and_true]
      exact ⟨high (by omega) (by omega), high (by omega) (by omega), high (by omega) (by omega),
        high (by omega) (by omega)⟩

theorem ascii_alone {c : Char} {b : UInt8} (ascii : b < 128)
    (member : b ∈ String.utf8EncodeChar c) : String.utf8EncodeChar c = [b] := by
  rcases char_bytes c with ⟨b', _, single⟩ | high
  · rw [single, List.mem_singleton] at member
    rw [single, member]
  · exact absurd ascii (UInt8.not_lt.mpr (high b member))

theorem valid_split {s t : List UInt8} {b : UInt8} (ascii : b < 128)
    (valid : Valid (s ++ b :: t)) : Valid s ∧ Valid t := by
  obtain ⟨cs, shape⟩ := valid_encode.mp valid
  clear valid
  induction cs generalizing s with
  | nil => simp [encode] at shape
  | cons c cs ih =>
    rw [encode, List.flatMap_cons, ← encode] at shape
    rcases List.append_eq_append_iff.mp shape with ⟨rest, whole, later⟩ | ⟨rest, rfl, later⟩
    · cases rest with
      | nil =>
        rw [List.append_nil] at whole
        have here := ih (s := []) later
        refine ⟨valid_encode.mpr ⟨[c], ?_⟩, here.2⟩
        simp [encode, whole]
      | cons b' rest =>
        obtain ⟨rfl, tail⟩ := List.cons.inj later
        have alone := ascii_alone (c := c) ascii (by simp [whole])
        rw [alone] at whole
        have parts := List.append_eq_singleton_iff.mp whole.symm
        simp only [reduceCtorEq, and_false, List.cons.injEq, true_and, or_false] at parts
        rw [parts.1, tail, parts.2]
        exact ⟨valid_encode.mpr ⟨[], rfl⟩, valid_encode.mpr ⟨cs, rfl⟩⟩
    · obtain ⟨front, back⟩ := ih later.symm
      exact ⟨valid_append (valid_encode.mpr ⟨[c], by simp [encode]⟩) front, back⟩

theorem valid_filter {s : List UInt8} {keep : UInt8 → Bool} (high : ∀ b, 128 ≤ b → keep b = true)
    (valid : Valid s) : Valid (s.filter keep) := by
  obtain ⟨cs, rfl⟩ := valid_encode.mp valid
  clear valid
  induction cs with
  | nil => exact valid_encode.mpr ⟨[], rfl⟩
  | cons c cs ih =>
    rw [encode, List.flatMap_cons, ← encode, List.filter_append]
    refine valid_append ?_ ih
    rcases char_bytes c with ⟨b, _, single⟩ | all
    · cases kept : keep b with
      | true =>
        rw [single, List.filter_singleton, kept]
        exact valid_encode.mpr ⟨[c], by simp [encode, single]⟩
      | false =>
        rw [single, List.filter_singleton, kept]
        exact valid_encode.mpr ⟨[], rfl⟩
    · rw [List.filter_eq_self.mpr fun b member => high b (all b member)]
      exact valid_encode.mpr ⟨[c], by simp [encode]⟩

end Utf8
