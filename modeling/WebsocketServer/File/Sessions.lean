import WebsocketServer.Library.Run
import WebsocketServer.File.TransferManager

/- What every state of the upload server satisfies: a session owns its descriptor, its
   temporary file and an exact count of the chunks marked in its bitmap, and a message or a
   removal for one id leaves every other id alone. -/
namespace FileTransferManager

theorem shifted_bit {bit : UInt8} (small : bit.toNat < 8) (x : UInt8) :
    ((x >>> bit) &&& 0x1 != 0) = x.toNat.testBit bit.toNat := by
  have whole : bit.toNat % 8 = bit.toNat := Nat.mod_eq_of_lt small
  have zero (y : UInt8) : (y != 0) = (y.toNat != 0) := by
    rw [Bool.eq_iff_iff, bne_iff_ne, bne_iff_ne, Ne, Ne, ← UInt8.toNat_inj]
    rfl
  simp [zero, Nat.testBit, whole, Nat.and_comm]

theorem bit_small (idx : UInt32) : (idx % 8).toUInt8.toNat = idx.toNat % 8 := by
  simp only [UInt32.toNat_toUInt8, UInt32.toNat_mod, UInt32.reduceToNat]
  omega

def bitAt (bm : Bytes) (i : Nat) : Bool := (bm.getD (i / 8) 0).toNat.testBit (i % 8)

theorem bitmapGet_eq (bm : Bytes) (idx : UInt32) : bitmapGet bm idx = bitAt bm idx.toNat := by
  unfold bitmapGet
  rw [shifted_bit (by rw [bit_small]; omega), bit_small]
  rfl

theorem or_bit {bit : UInt8} (small : bit.toNat < 8) (x : UInt8) :
    (x ||| (1 <<< bit)).toNat = x.toNat ||| 2 ^ bit.toNat := by
  have whole : bit.toNat % 8 = bit.toNat := Nat.mod_eq_of_lt small
  have fits : 2 ^ bit.toNat < 2 ^ 8 := Nat.pow_lt_pow_right (by decide) small
  rw [UInt8.toNat_or, UInt8.toNat_shiftLeft, whole, UInt8.toNat_one, Nat.shiftLeft_eq, Nat.one_mul,
    Nat.mod_eq_of_lt fits]

theorem bitAt_set {bm : Bytes} {i : UInt32} (inside : i.toNat / 8 < bm.length) (j : Nat) :
    bitAt (bitmapSet bm i) j = (decide (i.toNat = j) || bitAt bm j) := by
  have same : i.toNat = j ↔ i.toNat / 8 = j / 8 ∧ i.toNat % 8 = j % 8 := by omega
  have byte_index : (i / 8).toNat = i.toNat / 8 := rfl
  unfold bitAt bitmapSet
  rw [byte_index]
  by_cases byte : i.toNat / 8 = j / 8
  · have value : ((bm.set (i.toNat / 8) (bm.getD (i.toNat / 8) 0 ||| 1 <<< (i % 8).toUInt8)).getD
        (j / 8) 0).toNat = (bm.getD (j / 8) 0).toNat ||| 2 ^ (i.toNat % 8) := by
      rw [← byte, List.getD_eq_getElem?_getD, List.getElem?_set_self inside, Option.getD_some,
        or_bit (by rw [bit_small]; omega), bit_small]
    rw [value, Nat.testBit_or, Nat.testBit_two_pow, Bool.or_comm]
    simp only [same, byte, true_and]
  · have value : (bm.set (i.toNat / 8) (bm.getD (i.toNat / 8) 0 ||| 1 <<< (i % 8).toUInt8)).getD
        (j / 8) 0 = bm.getD (j / 8) 0 := by
      rw [List.getD_eq_getElem?_getD, List.getElem?_set_ne byte, List.getD_eq_getElem?_getD]
    rw [value]
    simp only [same, byte, false_and, decide_false, Bool.false_or]

theorem bitmapGet_set {bm : Bytes} {i : UInt32} (inside : i.toNat / 8 < bm.length) (j : UInt32) :
    bitmapGet (bitmapSet bm i) j = (decide (i = j) || bitmapGet bm j) := by
  rw [bitmapGet_eq, bitmapGet_eq, bitAt_set inside]
  simp only [UInt32.toNat_inj]

theorem bitAt_fresh (n i : Nat) : bitAt (List.replicate n 0) i = false := by
  have zero : (List.replicate n (0 : UInt8)).getD (i / 8) 0 = 0 := by
    rw [List.getD_eq_getElem?_getD, List.getElem?_replicate]
    split <;> rfl
  unfold bitAt
  rw [zero]
  exact Nat.zero_testBit _

/-- The chunks marked in a bitmap, as a set of indices. -/
def received (bitmap : Bytes) (total_chunks : UInt32) : Finset Nat :=
  (Finset.range total_chunks.toNat).filter fun i => bitmapGet bitmap (UInt32.ofNat i) = true

theorem mem_received {bitmap : Bytes} {total_chunks : UInt32} {i : Nat} :
    i ∈ received bitmap total_chunks ↔
      i < total_chunks.toNat ∧ bitmapGet bitmap (UInt32.ofNat i) = true := by
  simp only [received, Finset.mem_filter, Finset.mem_range]

theorem received_set {bitmap : Bytes} {total_chunks i : UInt32} (bound : i < total_chunks)
    (inside : i.toNat / 8 < bitmap.length) :
    received (bitmapSet bitmap i) total_chunks = insert i.toNat (received bitmap total_chunks) := by
  ext k
  have limit : i.toNat < total_chunks.toNat := bound
  rw [Finset.mem_insert, mem_received, mem_received]
  constructor
  · rintro ⟨small, bit⟩
    rw [bitmapGet_set inside, Bool.or_eq_true, decide_eq_true_eq] at bit
    rcases bit with same | marked
    · left
      have wrap : k % 2 ^ 32 = k := Nat.mod_eq_of_lt (by have := total_chunks.toNat_lt; omega)
      rw [same, UInt32.toNat_ofNat', wrap]
    · exact .inr ⟨small, marked⟩
  · rintro (rfl | ⟨small, marked⟩)
    · exact ⟨limit, by rw [bitmapGet_set inside]; simp⟩
    · exact ⟨small, by rw [bitmapGet_set inside, marked, Bool.or_true]⟩

theorem received_card_le (bitmap : Bytes) (total_chunks : UInt32) :
    (received bitmap total_chunks).card ≤ total_chunks.toNat := by
  have bound := Finset.card_filter_le (Finset.range total_chunks.toNat)
    (fun i => bitmapGet bitmap (UInt32.ofNat i) = true)
  rwa [Finset.card_range] at bound

theorem received_fresh (n : Nat) (total_chunks : UInt32) :
    received (List.replicate n 0) total_chunks = ∅ := by
  ext k
  rw [mem_received, bitmapGet_eq, bitAt_fresh]
  simp

/-- The names under which files of this id are stored. -/
def OwnedBy (id : UInt64) (q : Bytes) : Prop :=
  q = makeTempPath id ∨ ∃ name, q = makeFinalPath id name

theorem owned_apart {a b : UInt64} {q : Bytes} (ha : OwnedBy a q) (hb : OwnedBy b q) : a = b := by
  rcases ha with rfl | ⟨m, rfl⟩ <;> rcases hb with same | ⟨n, same⟩
  · exact makeTempPath_injective same
  · exact absurd same.symm (makeFinalPath_ne_makeTempPath b a n)
  · exact absurd same (makeFinalPath_ne_makeTempPath a b m)
  · exact makeFinalPath_injective same

structure Session (disk : FileSystem Bytes) (id : UInt64) (st : FileState) : Prop where
  own : st.file_id = id
  path : st.temp_path = makeTempPath id
  opened : ∃ fd, st.fd = some fd ∧ disk.Opened fd (makeTempPath id)
  chunk_size : st.chunk_size ≠ 0
  total_chunks : st.total_chunks ≠ 0
  bitmap : st.bitmap.length = (st.total_chunks.toNat + 7) / 8
  count : st.received_count.toNat = (received st.bitmap st.total_chunks).card

def Sound (m : Manager) : Prop :=
  ∀ id st, m.g_states.lookup id = some st → Session m.disk id st

/-- A change of the disk that spares the files of an id, and its open descriptors. -/
structure Spares (id : UInt64) (disk disk' : FileSystem Bytes) : Prop where
  opened : ∀ fd, disk.Opened fd (makeTempPath id) → disk'.Opened fd (makeTempPath id)
  bytes : ∀ q, OwnedBy id q → disk'.read q = disk.read q

structure Keeps (id : UInt64) (m m' : Manager) : Prop where
  session : m'.g_states.lookup id = m.g_states.lookup id
  disk : Spares id m.disk m'.disk

def Confined (id : UInt64) (disk disk' : FileSystem Bytes) : Prop :=
  ∀ other, other ≠ id → Spares other disk disk'

def Local (id : UInt64) (m m' : Manager) : Prop := ∀ other, other ≠ id → Keeps other m m'

theorem confined_refl (id : UInt64) (disk : FileSystem Bytes) : Confined id disk disk :=
  fun _ _ => ⟨fun _ h => h, fun _ _ => rfl⟩

theorem confined_trans {id : UInt64} {a b c : FileSystem Bytes} (first : Confined id a b)
    (second : Confined id b c) : Confined id a c := by
  intro other ne
  constructor
  · intro fd h
    exact (second other ne).opened fd ((first other ne).opened fd h)
  · intro q owned
    rw [(second other ne).bytes q owned, (first other ne).bytes q owned]

theorem keeps_refl (id : UInt64) (m : Manager) : Keeps id m m :=
  ⟨rfl, fun _ h => h, fun _ _ => rfl⟩

theorem keeps_trans {id : UInt64} {a b c : Manager} (first : Keeps id a b) (second : Keeps id b c) :
    Keeps id a c := by
  constructor
  · rw [second.session, first.session]
  · constructor
    · intro fd h
      exact second.disk.opened fd (first.disk.opened fd h)
    · intro q owned
      rw [second.disk.bytes q owned, first.disk.bytes q owned]

theorem local_refl (id : UInt64) (m : Manager) : Local id m m := fun other _ => keeps_refl other m

theorem local_trans {id : UInt64} {a b c : Manager} (first : Local id a b) (second : Local id b c) :
    Local id a c :=
  fun other ne => keeps_trans (first other ne) (second other ne)

theorem local_insert {id : UInt64} {m : Manager} {st : FileState} {disk : FileSystem Bytes}
    (confined : Confined id m.disk disk) : Local id m ⟨m.g_states.insert id st, disk⟩ :=
  fun other ne => ⟨AList.lookup_insert_ne ne, confined other ne⟩

theorem local_erase {id : UInt64} {m : Manager} {disk : FileSystem Bytes}
    (confined : Confined id m.disk disk) : Local id m ⟨m.g_states.erase id, disk⟩ :=
  fun other ne => ⟨AList.lookup_erase_ne ne, confined other ne⟩

theorem session_spared {id : UInt64} {disk disk' : FileSystem Bytes} {st : FileState}
    (session : Session disk id st) (spares : Spares id disk disk') : Session disk' id st := by
  obtain ⟨fd, here, opened⟩ := session.opened
  exact { session with opened := ⟨fd, here, spares.opened fd opened⟩ }

/- A local effect needs a look at its own session only. -/
theorem sound_local {id : UInt64} {m m' : Manager} (sound : Sound m) (effect : Local id m m')
    (here : ∀ st, m'.g_states.lookup id = some st → Session m'.disk id st) : Sound m' := by
  intro other st found
  by_cases same : other = id
  · subst same
    exact here st found
  · have keeps := effect other same
    rw [keeps.session] at found
    exact session_spared (sound other st found) keeps.disk

section
variable {id : UInt64} {disk : FileSystem Bytes}

theorem close_confined {fd : Nat} (opened : disk.Opened fd (makeTempPath id)) :
    Confined id disk (disk.close fd) := by
  intro other ne
  constructor
  · intro fd' h
    refine FileSystem.close_keeps ?_ h
    rintro rfl
    exact ne (makeTempPath_injective (FileSystem.opened_unique h opened))
  · intro q _
    rfl

theorem closeFd_confined {fd : Option Nat}
    (opened : ∃ n, fd = some n ∧ disk.Opened n (makeTempPath id)) :
    Confined id disk (closeFd disk fd) := by
  obtain ⟨n, rfl, opened⟩ := opened
  exact close_confined opened

theorem modify_confined {fd : Nat} (opened : disk.Opened fd (makeTempPath id))
    (f : Bytes → Bytes) : Confined id disk (disk.modify fd f) := by
  intro other ne
  constructor
  · intro fd' h
    rwa [FileSystem.modify_opened]
  · intro q owned
    rw [FileSystem.modify_read f opened, if_neg]
    rintro rfl
    exact ne (owned_apart owned (.inl rfl))

theorem open_confined {fd : Nat} (free : disk.fds fd = none) :
    Confined id disk (disk.openTruncate (makeTempPath id) fd) := by
  intro other ne
  constructor
  · intro fd' h
    refine FileSystem.open_keeps ?_ h
    rintro rfl
    obtain ⟨i, used, _⟩ := h
    rw [free] at used
    contradiction
  · intro q owned
    rw [FileSystem.open_read, if_neg]
    rintro rfl
    exact ne (owned_apart owned (.inl rfl))

theorem unlink_confined : Confined id disk (disk.unlink (makeTempPath id)) := by
  intro other ne
  constructor
  · intro fd h
    exact FileSystem.unlink_keeps (fun same => ne (makeTempPath_injective same)) h
  · intro q owned
    rw [FileSystem.unlink_read, if_neg]
    rintro rfl
    exact ne (owned_apart owned (.inl rfl))

theorem rename_confined {b : Bytes} (found : disk.read (makeTempPath id) = some b) (name : Bytes) :
    Confined id disk (disk.rename (makeTempPath id) (makeFinalPath id name)) := by
  intro other ne
  constructor
  · intro fd h
    exact FileSystem.rename_keeps (fun same => ne (makeTempPath_injective same))
      (fun same => makeFinalPath_ne_makeTempPath id other name same.symm) h
  · intro q owned
    rw [FileSystem.rename_read found, if_neg, if_neg]
    · rintro rfl
      exact ne (owned_apart owned (.inl rfl))
    · rintro rfl
      exact ne (owned_apart owned (.inr ⟨name, rfl⟩))

end

end FileTransferManager
