import WebsocketServer.File.Representation

/- The chunks a session still misses, and what becomes of it when one of them is written. -/
namespace FileTransferManager
open FileSystem

def missing (st : FileState) : Finset Nat :=
  (Finset.range st.total_chunks.toNat).filter fun i =>
    bitmapGet st.bitmap (UInt32.ofNat i) = false

/-- read fails before the loop has seen the end of a file of n bytes. -/
def readGivesUp : List ReadResult → Nat → Bool
  | [], _ => false
  | .interrupted :: results, n => readGivesUp results n
  | .failed :: _, _ => true
  | .upTo k :: results, n => n != 0 && readGivesUp results (n - min (max k 1) (64 * 1024))

def writtenBytes (m : Manager) (r : ChunkRequest) : Bytes :=
  overwrite (chunkOffset r.chunk_index r.st.chunk_size).toInt.toNat r.chunkData
    ((m.disk.read (makeTempPath r.file_id)).getD [])

/-- The kernel does not let computeFdCrc32 come to the end of the file. -/
def Unreadable (sys : SysResults) (m : Manager) (r : ChunkRequest) : Prop :=
  sys.lseekOk = false ∨ readGivesUp sys.reads (writtenBytes m r).length = true

theorem mem_missing {st : FileState} {i : Nat} :
    i ∈ missing st ↔ i < st.total_chunks.toNat ∧ bitmapGet st.bitmap (UInt32.ofNat i) = false := by
  simp only [missing, Finset.mem_filter, Finset.mem_range]

theorem missing_empty {disk : FileSystem Bytes} {id : UInt64} {st : FileState}
    (session : Session disk id st) : missing st = ∅ ↔ st.received_count = st.total_chunks := by
  have parts := Finset.card_filter_add_card_filter_not (s := Finset.range st.total_chunks.toNat)
    (fun i => bitmapGet st.bitmap (UInt32.ofNat i) = true)
  have rest : ((Finset.range st.total_chunks.toNat).filter fun i =>
      ¬ bitmapGet st.bitmap (UInt32.ofNat i) = true) = missing st := by
    simp only [missing, Bool.not_eq_true]
  have marked : ((Finset.range st.total_chunks.toNat).filter fun i =>
      bitmapGet st.bitmap (UInt32.ofNat i) = true) = received st.bitmap st.total_chunks := rfl
  rw [rest, marked, ← session.count, Finset.card_range] at parts
  rw [← Finset.card_eq_zero, ← UInt32.toNat_inj]
  omega

theorem missing_recorded {disk : FileSystem Bytes} {id : UInt64} {r : ChunkRequest}
    (session : Session disk id r.st) (range : r.chunk_index < r.st.total_chunks)
    (sys : SysResults) :
    missing (chunkState sys r) = (missing r.st).erase r.chunk_index.toNat := by
  have inside := bitmap_inside session range
  ext i
  rw [Finset.mem_erase, mem_missing, mem_missing]
  unfold chunkState
  split
  · rename_i already
    constructor
    · rintro ⟨small, unmarked⟩
      refine ⟨?_, small, unmarked⟩
      rintro rfl
      rw [UInt32.ofNat_toNat, already] at unmarked
      contradiction
    · exact fun rest => rest.2
  · have word := r.st.total_chunks.toNat_lt
    simp only [markReceived, bitmapGet_set inside, Bool.or_eq_false_iff, decide_eq_false_iff_not]
    constructor
    · rintro ⟨small, other, unmarked⟩
      refine ⟨?_, small, unmarked⟩
      rintro rfl
      exact other UInt32.ofNat_toNat.symm
    · rintro ⟨other, small, unmarked⟩
      refine ⟨small, ?_, unmarked⟩
      rintro same
      apply other
      rw [same, UInt32.toNat_ofNat', Nat.mod_eq_of_lt (by omega)]

theorem readLoop_fails (results : List ReadResult) (crc : UInt32) (rest : Bytes) :
    (∃ what, readLoop results crc rest = .error what) ↔
      readGivesUp results rest.length = true := by
  induction results generalizing crc rest with
  | nil => simp [readLoop, readGivesUp]
  | cons result results ih =>
    cases result with
    | interrupted => exact ih crc rest
    | failed => simp [readLoop, readGivesUp]
    | upTo n =>
      simp only [readLoop, readGivesUp, Bool.and_eq_true, bne_iff_ne]
      by_cases empty : rest = []
      · simp [empty]
      · have some_left : rest.length ≠ 0 := fun none => empty (List.length_eq_zero_iff.mp none)
        simp only [if_neg empty, ih, List.length_drop, some_left, ne_eq, not_false_eq_true,
          true_and]

theorem crc_fails (sys : SysResults) {disk : FileSystem Bytes} {fd : Nat} {b : Bytes}
    (bytes : disk.readFd fd = some b) :
    (∃ what, computeFdCrc32 sys disk (some fd) = .error what) ↔
      sys.lseekOk = false ∨ readGivesUp sys.reads b.length = true := by
  simp only [computeFdCrc32, bytes]
  cases sys.lseekOk with
  | false => simp
  | true =>
    have loop := readLoop_fails sys.reads CRC32.reset b
    simp only [← loop, Bool.true_eq_false, false_or]
    cases readLoop sys.reads CRC32.reset b with
    | error what => simp [Except.map]
    | ok crc => simp [Except.map]

section
variable {sys : SysResults} {m : Manager} {p : Bytes} {r : ChunkRequest}

theorem written_bytes (sound : Sound m) (accepted : Accepted m p r)
    (whole : r.chunkData.length ≤ writableBytes sys r) :
    ∃ fd, r.st.fd = some fd ∧ (pwriteAt sys m.disk r.st.fd r.chunkData
      (chunkOffset r.chunk_index r.st.chunk_size)).2.readFd fd = some (writtenBytes m r) := by
  have session := sound _ _ accepted.session
  obtain ⟨fd, here, opened⟩ := session.opened
  obtain ⟨b, bytes⟩ := session_read session
  have written := (write_effect sys sound accepted.session r.chunkData
    (chunkOffset r.chunk_index r.st.chunk_size)).1 _ _ accepted.session
  obtain ⟨fd', here', opened'⟩ := written.opened
  obtain rfl : fd = fd' := Option.some.inj (here.symm.trans here')
  have after := pwriteAt_bytes sys r opened (makeTempPath r.file_id)
  rw [here] at opened' ⊢
  rw [if_pos rfl, bytes, Option.map_some, List.take_of_length_le whole,
    opened_read opened'] at after
  refine ⟨fd, rfl, ?_⟩
  rw [after, writtenBytes, bytes, Option.getD_some]

theorem written_readable (sound : Sound m) (accepted : Accepted m p r)
    (whole : r.chunkData.length ≤ writableBytes sys r) :
    (∃ what, computeFdCrc32 sys (pwriteAt sys m.disk r.st.fd r.chunkData
      (chunkOffset r.chunk_index r.st.chunk_size)).2 r.st.fd = .error what) ↔
      Unreadable sys m r := by
  obtain ⟨fd, here, after⟩ := written_bytes sound accepted whole
  rw [here] at after ⊢
  rw [crc_fails sys after, Unreadable]

theorem recorded_full (sound : Sound m) (accepted : Accepted m p r) :
    (chunkState sys r).received_count = (chunkState sys r).total_chunks ↔
      missing r.st ⊆ {r.chunk_index.toNat} := by
  have session := sound _ _ accepted.session
  rw [← missing_empty (chunkState_session session accepted.range sys),
    missing_recorded session accepted.range, Finset.erase_eq_empty_iff,
    Finset.subset_singleton_iff]

theorem stored_outcome (sound : Sound m) (accepted : Accepted m p r)
    (whole : r.chunkData.length ≤ writableBytes sys r) :
    ((¬ missing r.st ⊆ {r.chunk_index.toNat} ∨ Unreadable sys m r) ∧
      (storeChunk sys r m).1.g_states.lookup r.file_id = some (chunkState sys r)) ∨
    (missing r.st ⊆ {r.chunk_index.toNat} ∧ ¬ Unreadable sys m r ∧
      (storeChunk sys r m).1.g_states.lookup r.file_id = none ∧
      ∃ ok, finishAck r.file_id ok ∈ (storeChunk sys r m).2) := by
  obtain ⟨fd, here, _⟩ := (sound _ _ accepted.session).opened
  have held : ({ m with disk := (pwriteAt sys m.disk r.st.fd r.chunkData
      (chunkOffset r.chunk_index r.st.chunk_size)).2 } : Manager).g_states.lookup r.file_id =
      some r.st := accepted.session
  have recorded := recordChunk_lookup sys held
  have same_fd : (chunkState sys r).fd = r.st.fd := by
    unfold chunkState
    split <;> rfl
  have readable := written_readable sound accepted whole
  rcases storeChunk_cases sys r m with
    ⟨partly, _⟩ | ⟨_, open', result⟩ | ⟨_, full, result⟩
  · exact absurd ((accepted_whole sys sound accepted).mpr whole) partly
  · left
    rw [Ne, recorded_full sound accepted] at open'
    rw [result]
    exact ⟨.inl open', recorded⟩
  · rw [recorded_full sound accepted] at full
    rw [result]
    rcases finishUpload_cases sys r.file_id (chunkState sys r) (recordChunk sys r _) with
      ⟨what, fails, ends⟩ | ⟨passes, ends⟩ | ⟨crc, passes, _, ends⟩
    · left
      rw [ends]
      rw [same_fd] at fails
      exact ⟨.inr (readable.mp ⟨what, fails⟩), recorded⟩
    · right
      rw [ends]
      rw [same_fd] at passes
      refine ⟨full, ?_, AList.lookup_erase _ _, 1, by simp⟩
      intro unreadable
      obtain ⟨what, fails⟩ := readable.mpr unreadable
      exact absurd (passes.symm.trans fails) (by simp)
    · right
      rw [ends]
      rw [same_fd] at passes
      refine ⟨full, ?_, AList.lookup_erase _ _, 0, by simp⟩
      intro unreadable
      obtain ⟨what, fails⟩ := readable.mpr unreadable
      exact absurd (passes.symm.trans fails) (by simp)

theorem chunk_run (sys : SysResults) (checked : checkChunk m p = .ok r) :
    handleClientMessage sys (MSG_FILE_CHUNK :: p) m = storeChunk sys r m := by
  have start : MSG_FILE_CHUNK ≠ MSG_FILE_START := by decide
  have query : MSG_FILE_CHUNK ≠ MSG_FILE_QUERY := by decide
  simp only [handleClientMessage, start, query, ↓reduceIte, handleFileChunk, checked]

end

end FileTransferManager
