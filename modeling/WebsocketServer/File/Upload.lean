import WebsocketServer.File.ClientMessage
import WebsocketServer.File.Replies

/- A file uploaded in chunks is put together exactly, in whatever order the chunks come. -/
namespace FileTransferManager
open FileSystem

theorem bmod_small {n : Nat} (small : n < 2 ^ 63) : (n : Int).bmod (2 ^ 64) = n := by
  apply Int.bmod_eq_of_le <;> omega

theorem off_t_small {x : UInt64} (small : x.toNat < 2 ^ 63) : x.toInt64.toInt = x.toNat := by
  rw [← Int64.toInt_toBitVec, UInt64.toBitVec_toInt64, BitVec.toInt_eq_toNat_bmod,
    UInt64.toNat_toBitVec, bmod_small small]

theorem chunkOffset_bmod (i c : UInt32) :
    (chunkOffset i c).toInt = ((i.toNat * c.toNat : Nat) : Int).bmod (2 ^ 64) := by
  have word (x : UInt32) : x.toUInt64.toInt64.toInt = x.toNat := by
    have bound := x.toNat_lt
    rw [off_t_small (by rw [UInt32.toNat_toUInt64]; omega), UInt32.toNat_toUInt64]
  unfold chunkOffset
  rw [Int64.toInt_mul, word, word, ← Nat.cast_mul]

theorem chunkOffset_toInt {i c : UInt32} (small : i.toNat * c.toNat < 2 ^ 63) :
    (chunkOffset i c).toInt = (i.toNat * c.toNat : Nat) := by
  rw [chunkOffset_bmod, bmod_small small]

/-- A FILE_START as the client builds it; a file name is cut to 512 bytes. -/
def startPayload (fileId fileSize : UInt64) (chunkSize totalChunks expectedCrc32 : UInt32)
    (base : Bytes) : Bytes :=
  MSG_FILE_START :: writeU64BE fileId ++ writeU64BE fileSize ++ writeU32BE chunkSize ++
    writeU32BE totalChunks ++ writeU32BE expectedCrc32 ++
    writeU16BE (UInt16.ofNat (base.take 512).length) ++ base.take 512

def chunkPayload (fileId : UInt64) (chunkIndex : UInt32) (data : Bytes) : Bytes :=
  MSG_FILE_CHUNK :: writeU64BE fileId ++ writeU32BE chunkIndex ++
    writeU32BE (CRC32.checksum data) ++ data

structure Upload where
  data : Bytes
  request : StartRequest
  nonempty : data ≠ []
  small : data.length < 2 ^ 63
  chunk_size : request.chunk_size ≠ 0
  size : request.file_size.toNat = data.length
  total : request.total_chunks.toNat =
    (data.length + request.chunk_size.toNat - 1) / request.chunk_size.toNat
  crc : request.expected_crc32 = CRC32.checksum data

namespace Upload
variable (u : Upload)

abbrev id : UInt64 := u.request.file_id
abbrev chunk : Nat := u.request.chunk_size.toNat

def slice (i : UInt32) : Bytes := (u.data.drop (i.toNat * u.chunk)).take u.chunk

def message (i : UInt32) : Bytes := chunkPayload u.id i (u.slice i)

theorem chunk_pos : 0 < u.chunk := by
  have nonzero := u.chunk_size
  rw [Ne, ← UInt32.toNat_inj] at nonzero
  exact Nat.pos_of_ne_zero nonzero

theorem total_eq : u.request.total_chunks.toNat = (u.data.length + u.chunk - 1) / u.chunk := u.total

variable {u}

theorem slice_begins {i : UInt32} (range : i < u.request.total_chunks) :
    i.toNat * u.chunk < u.data.length := by
  have below : i.toNat + 1 ≤ u.request.total_chunks.toNat := range
  rw [u.total_eq, Nat.le_div_iff_mul_le u.chunk_pos, Nat.succ_mul] at below
  have pos := u.chunk_pos
  have some := List.length_pos_iff.mpr u.nonempty
  omega

theorem slice_length (i : UInt32) :
    (u.slice i).length = min u.chunk (u.data.length - i.toNat * u.chunk) := by
  simp only [slice, List.length_take, List.length_drop]

theorem slice_full {i : UInt32} (range : i < u.request.total_chunks)
    (inner : i + 1 ≠ u.request.total_chunks) : (u.slice i).length = u.chunk := by
  have below : i.toNat < u.request.total_chunks.toNat := range
  have word := u.request.total_chunks.toNat_lt
  have one : (1 : UInt32).toNat = 1 := rfl
  have next : (i + 1).toNat = i.toNat + 1 := by
    rw [UInt32.toNat_add]
    exact Nat.mod_eq_of_lt (by omega)
  have apart : i.toNat + 1 ≠ u.request.total_chunks.toNat := by
    rw [← next]
    exact fun same => inner (UInt32.toNat_inj.mp same)
  have follows : i.toNat + 2 ≤ u.request.total_chunks.toNat := by omega
  rw [u.total_eq, Nat.le_div_iff_mul_le u.chunk_pos, Nat.add_mul] at follows
  have pos := u.chunk_pos
  rw [slice_length]
  omega

theorem slice_fits {i : UInt32} (range : i < u.request.total_chunks) :
    i.toNat * u.chunk + (u.slice i).length ≤ u.data.length := by
  have begins := slice_begins range
  rw [slice_length]
  omega

theorem slice_nonempty {i : UInt32} (range : i < u.request.total_chunks) : u.slice i ≠ [] := by
  have begins := slice_begins range
  have pos := u.chunk_pos
  intro empty
  have length := u.slice_length i
  rw [empty, List.length_nil] at length
  omega

theorem chunk_of_byte {k : Nat} (inside : k < u.data.length) :
    k / u.chunk < u.request.total_chunks.toNat := by
  have pos := u.chunk_pos
  rw [u.total_eq, Nat.lt_iff_add_one_le, Nat.le_div_iff_mul_le pos, Nat.succ_mul]
  have begins := Nat.div_mul_le_self k u.chunk
  omega

/- Writing a true chunk makes the bytes of that chunk right and keeps the others. -/
theorem overwrite_right {i : UInt32} {b : Bytes} {done : Finset Nat}
    (range : i < u.request.total_chunks) (length : b.length = u.data.length)
    (right : ∀ k < u.data.length, k / u.chunk ∈ done → b[k]? = u.data[k]?) :
    ∀ k < u.data.length, k / u.chunk ∈ insert i.toNat done →
      (overwrite (i.toNat * u.chunk) (u.slice i) b)[k]? = u.data[k]? := by
  intro k inside member
  have fits := slice_fits range
  have pos := u.chunk_pos
  rw [getElem?_overwrite (by omega)]
  split
  · rename_i within
    rw [slice_length] at within
    rw [slice, List.getElem?_take, if_pos (by omega), List.getElem?_drop]
    congr 1
    omega
  · rename_i outside
    rcases Finset.mem_insert.mp member with here | before
    · have begins := Nat.div_mul_le_self k u.chunk
      have ends := Nat.lt_div_mul_add pos (a := k)
      rw [here] at begins ends
      rw [slice_length] at outside
      omega
    · exact right k inside before

end Upload

/-- The messages that belong to an upload, with the chunk each one supplies. -/
inductive OwnMessage (u : Upload) : Bytes → Option UInt32 → Prop where
  | start {p : Bytes} (same : checkStart p = .ok u.request) :
      OwnMessage u (MSG_FILE_START :: p) none
  | query {p : Bytes} (long : 8 ≤ p.length) (id : readU64BE p = u.id) :
      OwnMessage u (MSG_FILE_QUERY :: p) none
  | chunk {i : UInt32} (range : i < u.request.total_chunks) : OwnMessage u (u.message i) (some i)

structure Creates (sys : SysResults) (disk : FileSystem Bytes) : Prop where
  opens : ∃ fd, sys.openFd = some fd ∧ disk.fds fd = none
  truncates : sys.ftruncateOk = true

/-- The system calls behind a FILE_CHUNK succeed; read may be interrupted or give less. -/
structure Stores (sys : SysResults) (data : Bytes) : Prop where
  writes : ∃ n, sys.pwriteCount = some n ∧ data.length ≤ n
  seeks : sys.lseekOk = true
  reads : ∀ result ∈ sys.reads, result ≠ .failed
  renames : sys.renameOk = true

inductive Permitted (u : Upload) (m : Manager) : Call → Option UInt32 → Prop where
  | own {sys : SysResults} {payload : Bytes} {supplies : Option UInt32}
      (message : OwnMessage u payload supplies)
      (succeeds : ∀ i ∈ supplies, Stores sys (u.slice i)) :
      Permitted u m (.message sys payload) supplies
  | foreign {sys : SysResults} {payload : Bytes} (other : readU64BE payload.tail ≠ u.id) :
      Permitted u m (.message sys payload) none
  | malformed {sys : SysResults} {payload : Bytes} (rejected : Rejected m payload) :
      Permitted u m (.message sys payload) none
  | cleanup {order : OldestFirst} {unlinkOk : UInt64 → Bool} {now_seconds ttl_seconds : UInt64}
      {max_sessions : Nat}
      (remains : (cleanupSessions order unlinkOk now_seconds ttl_seconds max_sessions
        m).g_states.lookup u.id ≠ none) :
      Permitted u m (.cleanup order unlinkOk now_seconds ttl_seconds max_sessions) none

inductive Uploading (u : Upload) : Manager → List (Call × Option UInt32) → Prop where
  | nil (m : Manager) : Uploading u m []
  | cons {m : Manager} {call : Call} {supplies : Option UInt32}
      {rest : List (Call × Option UInt32)} (permitted : Permitted u m call supplies)
      (later : Uploading u (perform m call).1 rest) : Uploading u m ((call, supplies) :: rest)

def supplied (calls : List (Call × Option UInt32)) : List UInt32 := calls.filterMap (·.2)

/-- The session of the upload, with the given chunks received and in place. -/
structure Progress (u : Upload) (m : Manager) (done : Finset Nat) : Prop where
  sound : Sound m
  session : ∃ st, m.g_states.lookup u.id = some st ∧ st.file_size = u.request.file_size ∧
    st.chunk_size = u.request.chunk_size ∧ st.total_chunks = u.request.total_chunks ∧
    st.expected_crc32 = u.request.expected_crc32 ∧
    st.final_display_name = sanitizeOriginalFilename u.request.raw_filename ∧
    received st.bitmap st.total_chunks = done
  bytes : ∃ b, m.disk.read (makeTempPath u.id) = some b ∧ b.length = u.data.length ∧
    ∀ k < u.data.length, k / u.chunk ∈ done → b[k]? = u.data[k]?

theorem progress_kept {u : Upload} {m m' : Manager} {done : Finset Nat}
    (progress : Progress u m done)
    (sound : Sound m') (keeps : Keeps u.id m m') : Progress u m' done := by
  refine ⟨sound, ?_, ?_⟩
  · rw [keeps.session]
    exact progress.session
  · rw [keeps.disk.bytes _ (.inl rfl)]
    exact progress.bytes

theorem progress_touched {u : Upload} {m : Manager} {done : Finset Nat} {st : FileState}
    (progress : Progress u m done) (found : m.g_states.lookup u.id = some st)
    (now_seconds : UInt64) : Progress u (touch m u.id st now_seconds) done := by
  refine ⟨(touch_effect progress.sound found now_seconds).1, ?_, progress.bytes⟩
  obtain ⟨st', found', known⟩ := progress.session
  rw [found] at found'
  injection found' with same
  subst same
  exact ⟨_, AList.lookup_insert _, known⟩

theorem checkStart_startPayload (r : StartRequest) (chunk_size : r.chunk_size ≠ 0)
    (total_chunks : r.total_chunks ≠ 0) (name : r.raw_filename.length ≤ 512) :
    checkStart (startPayload r.file_id r.file_size r.chunk_size r.total_chunks r.expected_crc32
      r.raw_filename).tail = .ok r := by
  have short : r.raw_filename.take 512 = r.raw_filename := List.take_of_length_le name
  have fields := decodeStart_fields r name
  simp only [startPayload, short, List.cons_append, List.tail_cons, List.append_assoc]
  rw [checkStart_decodes, fields, Except.bind, checkParams,
    if_neg (not_or.mpr ⟨total_chunks, chunk_size⟩)]

theorem readLoop_total {results : List ReadResult} (reads : ∀ result ∈ results, result ≠ .failed)
    (crc : UInt32) (rest : Bytes) : readLoop results crc rest = .ok (CRC32.update crc rest) := by
  induction results generalizing crc rest with
  | nil => rfl
  | cons result results ih =>
    have later := fun crc rest => ih (fun r mem => reads r (List.mem_cons_of_mem _ mem)) crc rest
    cases result with
    | interrupted => exact later crc rest
    | failed => exact absurd rfl (reads _ List.mem_cons_self)
    | upTo n =>
      simp only [readLoop]
      split
      · rename_i empty
        rw [empty]
        rfl
      · rw [later, ← CRC32.update_append, List.take_append_drop]

theorem computeFdCrc32_total {sys : SysResults} {disk : FileSystem Bytes} {fd : Nat} {b : Bytes}
    (seeks : sys.lseekOk = true) (reads : ∀ result ∈ sys.reads, result ≠ .failed)
    (bytes : disk.readFd fd = some b) :
    computeFdCrc32 sys disk (some fd) = .ok (CRC32.checksum b) := by
  simp only [computeFdCrc32, seeks, bytes, readLoop_total reads]
  rfl

theorem progress_count {u : Upload} {m : Manager} {done : Finset Nat} {st : FileState}
    (progress : Progress u m done) (found : m.g_states.lookup u.id = some st) :
    st.received_count = st.total_chunks ↔
      ∀ i < u.request.total_chunks.toNat, i ∈ done := by
  have count := (progress.sound _ _ found).count
  obtain ⟨st', found', _, _, total, _, _, marks⟩ := progress.session
  rw [found] at found'
  injection found' with same
  subst same
  have inside : done ⊆ Finset.range u.request.total_chunks.toNat := by
    rw [← marks, ← total]
    exact Finset.filter_subset _ _
  rw [← UInt32.toNat_inj, count, marks, total]
  constructor
  · intro full i bound
    have all := Finset.eq_of_subset_of_card_le inside (by rw [Finset.card_range, full])
    rw [all]
    exact Finset.mem_range.mpr bound
  · intro all
    have whole : done = Finset.range u.request.total_chunks.toNat := by
      apply Finset.Subset.antisymm inside
      intro i mem
      exact all i (Finset.mem_range.mp mem)
    rw [whole, Finset.card_range]

/- The bytes behind a complete upload are the announced ones, so the file check passes. -/
theorem finish_complete {u : Upload} {m : Manager} {done : Finset Nat} {st : FileState}
    {sys : SysResults} {data : Bytes} (progress : Progress u m done)
    (found : m.g_states.lookup u.id = some st)
    (all : ∀ i < u.request.total_chunks.toNat, i ∈ done) (stores : Stores sys data) :
    (finishUpload sys u.id st m).2 = [finishAck u.id 1] ∧
      (finishUpload sys u.id st m).1.g_states.lookup u.id = none ∧
      (finishUpload sys u.id st m).1.disk.read
        (makeFinalPath u.id (sanitizeOriginalFilename u.request.raw_filename)) = some u.data := by
  have session := progress.sound _ _ found
  obtain ⟨fd, here, opened⟩ := session.opened
  obtain ⟨st', found', _, _, _, expected, name, _⟩ := progress.session
  rw [found] at found'
  injection found' with same
  subst same
  obtain ⟨b, bytes, length, right⟩ := progress.bytes
  have exact_bytes : b = u.data := by
    apply List.ext_getElem?
    intro k
    by_cases inside : k < u.data.length
    · exact right k inside (all _ (Upload.chunk_of_byte inside))
    · rw [List.getElem?_eq_none (by omega), List.getElem?_eq_none (by omega)]
  subst exact_bytes
  have crc := computeFdCrc32_total stores.seeks stores.reads
    (show m.disk.readFd fd = some u.data by rw [← opened_read opened, bytes])
  have still : (m.disk.close fd).read (makeTempPath u.id) = some u.data := bytes
  have passes : CRC32.checksum u.data = st.expected_crc32 := by rw [expected, u.crc]
  unfold finishUpload
  rw [here, crc]
  simp only [passes, stores.renames, ↓reduceIte, AList.lookup_erase, closeFd, session.own,
    session.path, name, rename_read still, and_self]

theorem message_checked {u : Upload} {m : Manager} {st : FileState} {i : UInt32}
    (found : m.g_states.lookup u.id = some st) (total : st.total_chunks = u.request.total_chunks)
    (chunk_size : st.chunk_size = u.request.chunk_size) (range : i < u.request.total_chunks)
    (crc : UInt32) :
    checkChunk m (writeU64BE u.id ++ (writeU32BE i ++ (writeU32BE crc ++ u.slice i))) =
      if CRC32.checksum (u.slice i) ≠ crc then
        .error [mkError .FILE_CHUNK_CRC_MISMATCH "chunk crc32 mismatch", chunkAck u.id i 0]
      else .ok ⟨u.id, i, u.slice i, st⟩ := by
  have fields := decodeChunk_fields ⟨u.id, i, crc, u.slice i⟩
  have nonempty : (u.slice i).length ≠ 0 := fun empty =>
    Upload.slice_nonempty range (List.length_eq_zero_iff.mp empty)
  have size : ¬ (i + 1 ≠ st.total_chunks ∧ (u.slice i).length ≠ st.chunk_size.toNat) := by
    rintro ⟨inner, differs⟩
    rw [total] at inner
    rw [chunk_size] at differs
    exact differs (Upload.slice_full range inner)
  rw [checkChunk_decodes, fields, Except.mapError, Except.bind, checkFields]
  simp only [found]
  rw [if_neg (by rw [total]; exact UInt32.not_le.mpr range), if_neg nonempty, if_neg size]

/- The server takes a true chunk for what it is. -/
theorem message_accepted {u : Upload} {m : Manager} {st : FileState} {i : UInt32}
    (found : m.g_states.lookup u.id = some st) (total : st.total_chunks = u.request.total_chunks)
    (chunk_size : st.chunk_size = u.request.chunk_size) (range : i < u.request.total_chunks) :
    checkChunk m (u.message i).tail = .ok ⟨u.id, i, u.slice i, st⟩ := by
  simp only [Upload.message, chunkPayload, List.cons_append, List.tail_cons, List.append_assoc]
  rw [message_checked found total chunk_size range, if_neg (not_not.mpr rfl)]

theorem slice_written {u : Upload} (disk : FileSystem Bytes) (fd : Nat) {sys : SysResults}
    {i : UInt32} (range : i < u.request.total_chunks) (stores : Stores sys (u.slice i)) :
    pwriteAt sys disk (some fd) (u.slice i) (chunkOffset i u.request.chunk_size) =
      (some (u.slice i).length,
        disk.modify fd (overwrite (i.toNat * u.chunk) (u.slice i))) := by
  obtain ⟨n, count, whole⟩ := stores.writes
  have small := u.small
  have begins := Upload.slice_begins range
  have offset := chunkOffset_toInt (show i.toNat * u.chunk < 2 ^ 63 by omega)
  have forward : ¬ chunkOffset i u.request.chunk_size < 0 := by
    rw [Int64.lt_iff_toInt_lt, offset]
    exact not_lt.mpr (Int.natCast_nonneg _)
  simp only [pwriteAt, count, forward, ↓reduceIte, offset, Int.toNat_natCast,
    Nat.min_eq_right whole, List.take_of_length_le whole, pwrite]

theorem chunk_recorded {u : Upload} {m : Manager} {done : Finset Nat} {sys : SysResults}
    {i : UInt32} (progress : Progress u m done) (range : i < u.request.total_chunks)
    (stores : Stores sys (u.slice i)) :
    ∃ st m₁, Progress u m₁ (insert i.toNat done) ∧ m₁.g_states.lookup u.id = some st ∧
      handleClientMessage sys (u.message i) m =
        let ack := chunkAck u.id i (if i.toNat ∈ done then 0 else 1)
        if st.received_count = st.total_chunks then
          ((finishUpload sys u.id st m₁).1, ack :: (finishUpload sys u.id st m₁).2)
        else (m₁, [ack]) := by
  obtain ⟨st, found, file_size, chunk_size, total, expected, name, marks⟩ := progress.session
  obtain ⟨b, bytes, length, right⟩ := progress.bytes
  have session := progress.sound _ _ found
  obtain ⟨fd, here, opened⟩ := session.opened
  have accepted := message_accepted found total chunk_size range
  have range' : i < st.total_chunks := total ▸ range
  have marked : bitmapGet st.bitmap i = true ↔ i.toNat ∈ done := by
    have bound : i.toNat < st.total_chunks.toNat := range'
    rw [← marks, mem_received, UInt32.ofNat_toNat]
    exact ⟨fun bit => ⟨bound, bit⟩, fun h => h.2⟩
  have written := slice_written m.disk fd range stores
  have moved := write_effect sys progress.sound found (u.slice i)
    (chunkOffset i u.request.chunk_size)
  rw [here, written] at moved
  let r : ChunkRequest := ⟨u.id, i, u.slice i, st⟩
  let m₁ := recordChunk sys r
    { m with disk := m.disk.modify fd (overwrite (i.toNat * u.chunk) (u.slice i)) }
  have recorded := recordChunk_lookup (r := r) sys found
  refine ⟨chunkState sys r, m₁, ⟨?_, ⟨chunkState sys r, recorded, ?_⟩, ?_⟩, recorded, ?_⟩
  · exact (recordChunk_effect (r := r) sys moved.1 found range').1
  · unfold chunkState
    split
    · rename_i bit
      refine ⟨file_size, chunk_size, total, expected, name, ?_⟩
      rw [Finset.insert_eq_of_mem (marked.mp bit)]
      exact marks
    · refine ⟨file_size, chunk_size, total, expected, name, ?_⟩
      have grown := received_set range' (bitmap_inside session range')
      simp only [markReceived, r]
      rw [grown, marks]
  · refine ⟨overwrite (i.toNat * u.chunk) (u.slice i) b, ?_, ?_, ?_⟩
    · change (m.disk.modify fd _).read (makeTempPath u.id) = _
      rw [modify_read _ opened, if_pos rfl, bytes, Option.map_some]
    · have fits := Upload.slice_fits range
      rw [length_overwrite (by omega), length]
    · exact Upload.overwrite_right range length right
  · have opcode : u.message i = MSG_FILE_CHUNK :: (u.message i).tail := rfl
    have bit : bitmapGet st.bitmap i = decide (i.toNat ∈ done) := by
      rw [Bool.eq_iff_iff, marked, decide_eq_true_eq]
    have code : MSG_FILE_CHUNK ≠ MSG_FILE_START ∧ MSG_FILE_CHUNK ≠ MSG_FILE_QUERY := by decide
    rw [opcode, handleClientMessage, if_neg code.1, if_neg code.2, if_pos rfl, handleFileChunk,
      accepted]
    simp only [storeChunk, here, chunk_size, written, bit, ne_eq, not_true_eq_false, ↓reduceIte,
      decide_eq_true_eq, m₁, r]

def extended (done : Finset Nat) : Option UInt32 → Finset Nat
  | none => done
  | some i => insert i.toNat done

theorem progress_step {u : Upload} {m : Manager} {done : Finset Nat} {call : Call}
    {supplies : Option UInt32} (progress : Progress u m done)
    (permitted : Permitted u m call supplies)
    (missing : ∃ k < u.request.total_chunks.toNat, k ∉ extended done supplies) :
    Progress u (perform m call).1 (extended done supplies) ∧
      ∀ reply ∈ (perform m call).2, ¬ IsFinishAck u.id reply := by
  have foreign (payload : Bytes) (other : readU64BE payload.tail ≠ u.id) (sys : SysResults) :
      Progress u (handleClientMessage sys payload m).1 done ∧
        ∀ reply ∈ (handleClientMessage sys payload m).2, ¬ IsFinishAck u.id reply := by
    have effect := handleClientMessage_effect sys payload progress.sound
    refine ⟨progress_kept progress effect.1 (effect.2 u.id other.symm), ?_⟩
    intro reply mem finish
    exact other (finishAck_addressed mem finish).symm
  have plain (id : UInt64) (total : UInt32) (bitmap : Bytes) :
      ∀ reply ∈ [queryResponse id total bitmap], ¬ IsFinishAck u.id reply := by
    intro reply mem finish
    have head := finishAck_head finish
    rw [List.mem_singleton.mp mem] at head
    exact absurd (Option.some.inj head) (by decide)
  cases permitted with
  | foreign other => exact foreign _ other _
  | @malformed sys payload rejected =>
    obtain ⟨same, quiet⟩ := rejected_unchanged sys rejected
    constructor
    · simp only [perform, same]
      exact progress
    · intro reply mem finish
      exact quiet reply mem (finishAck_head finish)
  | cleanup remains =>
    refine ⟨progress_kept progress ?_ (cleanupSessions_keeps progress.sound remains), ?_⟩
    · exact cleanupSessions_sound _ _ _ _ _ progress.sound
    · simp [perform]
  | @own sys payload supplies message succeeds =>
    obtain ⟨st, found, file_size, chunk_size, total, expected, _⟩ := progress.session
    cases message with
    | @start p same =>
      have resumes : u.request.resumes st = true := by
        simp only [StartRequest.resumes, file_size, chunk_size, total, expected, beq_self_eq_true,
          Bool.and_self]
      have run : handleClientMessage sys (MSG_FILE_START :: p) m =
          (touch m u.id st sys.now_seconds,
            [queryResponse u.id u.request.total_chunks st.bitmap]) := by
        simp only [handleClientMessage, handleFileStart, same, found, resumes, ↓reduceIte]
      simp only [perform, run]
      exact ⟨progress_touched progress found _, plain _ _ _⟩
    | @query p long id =>
      have code : MSG_FILE_QUERY ≠ MSG_FILE_START := by decide
      have checked : checkQuery m p = .ok ⟨u.id, st⟩ := by
        unfold checkQuery
        rw [if_neg (not_lt.mpr long), id]
        simp only [found]
      have run : handleClientMessage sys (MSG_FILE_QUERY :: p) m =
          (touch m u.id st sys.now_seconds, [queryResponse u.id st.total_chunks st.bitmap]) := by
        simp only [handleClientMessage, code, handleFileQuery, checked, ↓reduceIte]
      simp only [perform, run]
      exact ⟨progress_touched progress found _, plain _ _ _⟩
    | @chunk i range =>
      obtain ⟨st₁, m₁, progress₁, found₁, run⟩ :=
        chunk_recorded progress range (succeeds i rfl)
      have going : ¬ st₁.received_count = st₁.total_chunks := by
        rw [progress_count progress₁ found₁]
        intro all
        obtain ⟨k, bound, absent⟩ := missing
        exact absent (all k bound)
      simp only [perform, run, going, ↓reduceIte]
      refine ⟨progress₁, ?_⟩
      intro reply mem finish
      have head := finishAck_head finish
      rw [List.mem_singleton.mp mem] at head
      exact absurd (Option.some.inj head) (by decide)

/- The run lemma: no acknowledgement as long as some chunk has not been supplied. -/
theorem progress_run {u : Upload} {m : Manager} {done : Finset Nat}
    {calls : List (Call × Option UInt32)} (progress : Progress u m done)
    (uploading : Uploading u m calls)
    (missing : ∃ k < u.request.total_chunks.toNat, k ∉ done ∧ ∀ i ∈ supplied calls, i.toNat ≠ k) :
    (∀ t ∈ Run.steps perform m (calls.map (·.1)),
        ∀ reply ∈ t.output, ¬ IsFinishAck u.id reply) ∧
      ∃ done', Progress u (Run.final perform m (calls.map (·.1))) done' ∧
        ∀ k, k ∈ done' ↔ k ∈ done ∨ ∃ i ∈ supplied calls, i.toNat = k := by
  induction uploading generalizing done with
  | nil m => exact ⟨by simp [Run.steps], done, progress, by simp [supplied]⟩
  | @cons m call supplies rest permitted later ih =>
    obtain ⟨k, bound, absent, unsupplied⟩ := missing
    have split : ∀ j, j ∈ extended done supplies ↔
        j ∈ done ∨ ∃ i ∈ supplied [(call, supplies)], i.toNat = j := by
      intro j
      cases supplies with
      | none => simp [extended, supplied]
      | some i => simp [extended, supplied, or_comm, eq_comm]
    have joined : supplied ((call, supplies) :: rest) =
        supplied [(call, supplies)] ++ supplied rest := by
      simp only [supplied, ← List.filterMap_append, List.singleton_append]
    rw [joined] at unsupplied
    have still : k ∉ extended done supplies := by
      rw [split]
      rintro (old | ⟨i, mem, here⟩)
      · exact absent old
      · exact unsupplied i (List.mem_append_left _ mem) here
    obtain ⟨next, quiet⟩ := progress_step progress permitted ⟨k, bound, still⟩
    obtain ⟨quiet', done', last, marks⟩ := ih next
      ⟨k, bound, still, fun i mem => unsupplied i (List.mem_append_right _ mem)⟩
    simp only [List.map_cons, Run.steps, List.forall_mem_cons]
    refine ⟨⟨quiet, quiet'⟩, done', last, ?_⟩
    intro j
    rw [marks, split, joined]
    simp only [List.mem_append]
    constructor
    · rintro ((old | ⟨i, mem, here⟩) | ⟨i, mem, here⟩)
      · exact .inl old
      · exact .inr ⟨i, .inl mem, here⟩
      · exact .inr ⟨i, .inr mem, here⟩
    · rintro (old | ⟨i, mem | mem, here⟩)
      · exact .inl (.inl old)
      · exact .inl (.inr ⟨i, mem, here⟩)
      · exact .inr ⟨i, mem, here⟩

/- FILE_START for a fresh session: every byte of the temporary file is zero, none is received. -/
theorem start_progress {u : Upload} {m : Manager} {sys : SysResults} {p : Bytes} (sound : Sound m)
    (announced : checkStart p = .ok u.request)
    (fresh : ∀ ex, m.g_states.lookup u.id = some ex → u.request.resumes ex = false)
    (creates : Creates sys (replaced m u.id).disk) :
    Progress u (handleClientMessage sys (MSG_FILE_START :: p) m).1 ∅ ∧
      ∀ reply ∈ (handleClientMessage sys (MSG_FILE_START :: p) m).2,
        ¬ IsFinishAck u.id reply := by
  obtain ⟨fd, opens, free⟩ := creates.opens
  have run : handleClientMessage sys (MSG_FILE_START :: p) m =
      createSession sys u.request (replaced m u.id) := by
    simp only [handleClientMessage, handleFileStart, announced, ↓reduceIte, replaced]
    cases found : m.g_states.lookup u.id with
    | none => rfl
    | some ex => simp only [fresh ex found, Bool.false_eq_true, ↓reduceIte]
  have sound' := (handleClientMessage_effect sys (MSG_FILE_START :: p) sound).1
  have opened : openTemp sys (replaced m u.id).disk (makeTempPath u.id) =
      some (fd, (replaced m u.id).disk.openTruncate (makeTempPath u.id) fd) := by
    simp only [openTemp, opens, free, Option.isSome_none, Bool.false_eq_true, ↓reduceIte]
  have length := off_t_small (x := u.request.file_size) (by rw [u.size]; exact u.small)
  have nonnegative : ¬ u.request.file_size.toInt64 < 0 := by
    rw [Int64.lt_iff_toInt_lt, length]
    exact not_lt.mpr (Int.natCast_nonneg _)
  have truncated (disk : FileSystem Bytes) :
      truncateTo sys disk fd u.request.file_size.toInt64 =
        some (disk.modify fd (resize u.data.length)) := by
    simp only [truncateTo, creates.truncates, Bool.true_eq_false, nonnegative, or_self, ↓reduceIte,
      length, Int.toNat_natCast, u.size, ftruncate]
  have created : createSession sys u.request (replaced m u.id) =
      (⟨(replaced m u.id).g_states.insert u.id (newSession u.request fd sys.now_seconds),
        ((replaced m u.id).disk.openTruncate (makeTempPath u.id) fd).modify fd
          (resize u.data.length)⟩,
        [queryResponse u.id u.request.total_chunks
          (newSession u.request fd sys.now_seconds).bitmap]) := by
    simp only [createSession, opened, truncated]
  rw [run, created] at sound' ⊢
  refine ⟨⟨sound', ?_, ?_⟩, ?_⟩
  · exact ⟨_, AList.lookup_insert _, rfl, rfl, rfl, rfl, rfl, received_fresh _ _⟩
  · refine ⟨resize u.data.length [], ?_, length_resize _ _, by simp⟩
    rw [modify_read _ open_opened, if_pos rfl, open_read, if_pos rfl, Option.map_some]
  · intro reply mem finish
    have head := finishAck_head finish
    rw [List.mem_singleton.mp mem] at head
    exact absurd (Option.some.inj head) (by decide)

/-- An upload is put together exactly: nothing is acknowledged before every chunk has been
    supplied, and the message that supplies the last one finishes the upload. -/
theorem upload_reassembled (u : Upload) {m : Manager} {sys : SysResults} {p : Bytes}
    {calls : List (Call × Option UInt32)} (reachable : Reachable m)
    (announced : checkStart p = .ok u.request)
    (fresh : ∀ ex, m.g_states.lookup u.id = some ex → u.request.resumes ex = false)
    (creates : Creates sys (replaced m u.id).disk)
    (uploading : Uploading u (perform m (.message sys (MSG_FILE_START :: p))).1 calls)
    (missing : ∃ i < u.request.total_chunks, i ∉ supplied calls) :
    let run := Call.message sys (MSG_FILE_START :: p) :: calls.map (·.1)
    (∀ t ∈ Run.steps perform m run, ∀ reply ∈ t.output, ¬ IsFinishAck u.id reply) ∧
      ∀ i sys', i < u.request.total_chunks → Stores sys' (u.slice i) →
        (∀ j < u.request.total_chunks, j ≠ i → j ∈ supplied calls) →
          let last := handleClientMessage sys' (u.message i) (Run.final perform m run)
          last.2 = [chunkAck u.id i 1, finishAck u.id 1] ∧
            last.1.g_states.lookup u.id = none ∧
            last.1.disk.read (makeFinalPath u.id
              (sanitizeOriginalFilename u.request.raw_filename)) = some u.data := by
  obtain ⟨k, bound, unsupplied⟩ := missing
  obtain ⟨begun, quiet⟩ := start_progress (reachable_sound reachable) announced fresh creates
  have apart : ∀ i ∈ supplied calls, i.toNat ≠ k.toNat := by
    intro i mem same
    exact unsupplied (UInt32.toNat_inj.mp same ▸ mem)
  obtain ⟨quiet', done, progress, marks⟩ :=
    progress_run begun uploading ⟨k.toNat, bound, by simp, apart⟩
  refine ⟨?_, ?_⟩
  · simp only [Run.steps, List.forall_mem_cons]
    exact ⟨quiet, quiet'⟩
  · intro i sys' range stores others
    have here : k = i := by
      by_contra differs
      exact unsupplied (others k bound differs)
    subst here
    have absent : k.toNat ∉ done := by
      rw [marks]
      rintro (old | ⟨i, mem, same⟩)
      · simp at old
      · exact apart i mem same
    obtain ⟨st, m₁, progress₁, found₁, run⟩ := chunk_recorded progress range stores
    have all : ∀ j < u.request.total_chunks.toNat, j ∈ insert k.toNat done := by
      intro j small
      rw [Finset.mem_insert, marks]
      have wrap : j % 2 ^ 32 = j :=
        Nat.mod_eq_of_lt (by have := u.request.total_chunks.toNat_lt; omega)
      have value : (UInt32.ofNat j).toNat = j := by rw [UInt32.toNat_ofNat', wrap]
      by_cases same : UInt32.ofNat j = k
      · exact .inl (by rw [← same, value])
      · have below : UInt32.ofNat j < u.request.total_chunks := by
          rw [UInt32.lt_iff_toNat_lt, value]
          exact small
        exact .inr (.inr ⟨_, others _ below same, value⟩)
    obtain ⟨replies, gone, stored⟩ := finish_complete progress₁ found₁ all stores
    have complete := (progress_count progress₁ found₁).mpr all
    simp only [complete, absent, ↓reduceIte, replies] at run
    intro last
    have result : last = _ := run
    rw [result]
    exact ⟨rfl, gone, stored⟩

def threeBytes : Upload where
  data := [1, 2, 3]
  request := ⟨7, 3, 2, 2, CRC32.checksum [1, 2, 3], []⟩
  nonempty := by decide
  small := by decide
  chunk_size := by decide
  size := rfl
  total := rfl
  crc := rfl

def willing : SysResults where
  now_seconds := 0
  openFd := some 3
  ftruncateOk := true
  pwriteCount := some 2
  lseekOk := true
  reads := [.interrupted, .upTo 1]
  renameOk := true
  unlinkOk := true

theorem willing_stores {data : Bytes} (short : data.length ≤ 2) : Stores willing data :=
  ⟨⟨2, rfl, short⟩, rfl, by decide, rfl⟩

def threeBytesStart : Bytes :=
  (startPayload 7 3 2 2 (CRC32.checksum [1, 2, 3]) []).tail

/- The second chunk first, a query and an unknown message in between, then the first chunk. -/
theorem threeBytes_reassembled :
    let calls := [(Call.message willing (threeBytes.message 1), some 1),
      (.message willing (MSG_FILE_QUERY :: writeU64BE 7), none), (.message willing [9], none)]
    let run := Call.message willing (MSG_FILE_START :: threeBytesStart) :: calls.map (·.1)
    (∀ t ∈ Run.steps perform (start .empty) run, ∀ reply ∈ t.output,
        ¬ IsFinishAck threeBytes.id reply) ∧
      ∀ i sys', i < threeBytes.request.total_chunks → Stores sys' (threeBytes.slice i) →
        (∀ j < threeBytes.request.total_chunks, j ≠ i → j ∈ supplied calls) →
          let last := handleClientMessage sys' (threeBytes.message i)
            (Run.final perform (start .empty) run)
          last.2 = [chunkAck threeBytes.id i 1, finishAck threeBytes.id 1] ∧
            last.1.g_states.lookup threeBytes.id = none ∧
            last.1.disk.read (makeFinalPath threeBytes.id
              (sanitizeOriginalFilename threeBytes.request.raw_filename)) =
                some threeBytes.data := by
  refine upload_reassembled threeBytes ⟨_, [], ⟨.empty, rfl⟩, rfl⟩ ?_ ?_ ?_ ?_ ?_
  · exact checkStart_startPayload threeBytes.request (by decide) (by decide) (by decide)
  · intro ex found
    contradiction
  · exact ⟨⟨3, rfl, rfl⟩, rfl⟩
  · refine .cons (.own (.chunk (by decide)) ?_) (.cons (.own (.query ?_ ?_) ?_)
      (.cons (.malformed ?_) (.nil _)))
    · rintro i ⟨⟩
      exact willing_stores (by decide)
    · decide
    · exact readU64BE_writeU64BE 7 []
    · rintro i ⟨⟩
    · have code : (9 : UInt8) ≠ MSG_FILE_START ∧ (9 : UInt8) ≠ MSG_FILE_QUERY ∧
          (9 : UInt8) ≠ MSG_FILE_CHUNK := by decide
      simp only [Rejected, code.1, code.2.1, code.2.2, ↓reduceIte]
  · exact ⟨0, by decide, by decide⟩

end FileTransferManager
