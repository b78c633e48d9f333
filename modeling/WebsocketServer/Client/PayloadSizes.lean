import WebsocketServer.Client.Resume
import WebsocketServer.Ws.BinaryFrames

/- The sizes of the messages the two sides build, against the limit their parsers share. -/
namespace MainClient
open FileTransferManager WebSocketCodec Upgrade StreamParser

theorem default_limit (zeroRtt : Option String) : maxPayloadLimit ⟨none, zeroRtt⟩ = 65536 := rfl

/-- With the default limit the server's parser delivers the frame the client builds. -/
def ServerAccepts (payload : Bytes) : Prop :=
  ∀ (ssl : OpenSsl) (zeroRtt : Option String) (now : UInt64) (seen : NonceTable)
    (rand : Option MaskKey), DeliversBinary ssl ⟨none, zeroRtt⟩ now seen true
      (buildClientBinaryFrame rand payload) payload

def someSsl : OpenSsl := ⟨id, id⟩

theorem serverAccepts_iff {payload : Bytes} (bound : payload.length < 2 ^ 64) :
    ServerAccepts payload ↔ payload.length ≤ 65536 := by
  constructor
  · intro accepts
    exact (client_binary_iff someSsl ⟨none, none⟩ 0 [] none bound).mp (accepts _ _ _ _ _)
  · intro fits ssl zeroRtt now seen rand
    exact (client_binary_iff ssl ⟨none, zeroRtt⟩ now seen rand bound).mpr fits

namespace Upload
variable (u : Upload)

theorem chunkSize_pos : 0 < u.chunkSize.toNat := by
  have nonzero := u.divisible
  rw [Ne, ← UInt32.toNat_inj] at nonzero
  exact Nat.pos_of_ne_zero nonzero

theorem fileSize_toNat : u.fileSize.toNat = u.content.length := by
  have small := u.off_t_size
  rw [fileSize, UInt64.toNat_ofNat']
  exact Nat.mod_eq_of_lt (by omega)

theorem totalChunks_toNat : u.totalChunks.toNat =
    (u.content.length + u.chunkSize.toNat - 1) / u.chunkSize.toNat % 2 ^ 32 := by
  have small := u.off_t_size
  have word := u.chunkSize.toNat_lt
  have positive := u.chunkSize_pos
  have sum : (u.fileSize + u.chunkSize.toUInt64).toNat = u.content.length + u.chunkSize.toNat := by
    rw [UInt64.toNat_add, fileSize_toNat, UInt32.toNat_toUInt64]
    exact Nat.mod_eq_of_lt (by omega)
  have one : (1 : UInt64) ≤ u.fileSize + u.chunkSize.toUInt64 := by
    rw [UInt64.le_iff_toNat_le, sum]
    simp only [UInt64.reduceToNat]
    omega
  rw [totalChunks, UInt64.toNat_toUInt32, UInt64.toNat_div, UInt64.toNat_sub_of_le _ _ one, sum,
    UInt32.toNat_toUInt64]
  rfl

theorem length_startPayload : u.startPayload.length ≤ 543 := by
  have name := List.length_take_le 512 (fileBasename u.filePath)
  simp only [startPayload, List.length_cons, List.length_append, length_writeU64BE,
    length_writeU32BE, length_writeU16BE]
  omega

theorem length_queryPayload : u.queryPayload.length = 9 := by
  simp only [queryPayload, List.length_cons, length_writeU64BE]

theorem length_chunkPayload (chunkIndex : UInt32) (data : Bytes) :
    (u.chunkPayload chunkIndex data).length = data.length + 17 := by
  simp only [chunkPayload, List.length_cons, List.length_append, length_writeU64BE,
    length_writeU32BE]
  omega

theorem curLen_toNat (chunkIndex : UInt32) : (u.curLen chunkIndex).toNat =
    min (u.fileSize - u.offset chunkIndex).toNat u.chunkSize.toNat := by
  have word := u.chunkSize.toNat_lt
  have smaller : (min (u.fileSize - u.offset chunkIndex) u.chunkSize.toUInt64).toNat =
      min (u.fileSize - u.offset chunkIndex).toNat u.chunkSize.toNat := by
    rw [UInt64.toNat_min, UInt32.toNat_toUInt64]
  rw [curLen, UInt64.toNat_toUInt32, smaller]
  exact Nat.mod_eq_of_lt (by omega)

theorem readChunk_length {chunkIndex : UInt32} {data : Bytes}
    (read : u.readChunk chunkIndex = some data) :
    data.length ≤ min u.content.length u.chunkSize.toNat := by
  have length := u.curLen_toNat chunkIndex
  simp only [readChunk] at read
  split at read
  · contradiction
  · obtain rfl := Option.some.inj read
    simp only [List.length_take, List.length_drop]
    omega

theorem chunkPayloads_mem {indices : List UInt32} {payload : Bytes}
    (mem : payload ∈ u.chunkPayloads indices) : ∃ chunkIndex ∈ indices, ∃ data,
      u.readChunk chunkIndex = some data ∧ payload = u.chunkPayload chunkIndex data := by
  induction indices with
  | nil => simp [chunkPayloads] at mem
  | cons first later ih =>
    simp only [chunkPayloads] at mem
    split at mem
    · simp at mem
    · rename_i data read
      rcases List.mem_cons.mp mem with rfl | after
      · exact ⟨first, List.mem_cons_self, data, read, rfl⟩
      · obtain ⟨chunkIndex, inside, found⟩ := ih after
        exact ⟨chunkIndex, List.mem_cons_of_mem _ inside, found⟩

/- An upload with chunks starts with one that is as long as the file and the chunk size allow. -/
theorem first_chunk (chunks : u.totalChunks.toNat ≠ 0) :
    ∃ data, data.length = min u.content.length u.chunkSize.toNat ∧
      u.chunkPayload 0 data ∈ u.payloads [] := by
  have start : u.offset 0 = 0 := UInt64.zero_mul
  have length : (u.curLen 0).toNat = min u.content.length u.chunkSize.toNat := by
    rw [curLen_toNat, start, UInt64.sub_zero, fileSize_toNat]
  have read : u.readChunk 0 = some (u.content.take (u.curLen 0).toNat) := by
    simp only [readChunk, start, UInt64.toNat_zero, List.drop_zero, List.length_take]
    rw [if_neg (by omega)]
  obtain ⟨n, more⟩ := Nat.exists_eq_succ_of_ne_zero chunks
  have first : ∃ later, u.missingChunks [] = 0 :: later := by
    rw [missingChunks, more, List.range_succ_eq_map, List.map_cons, List.filter_cons]
    exact ⟨_, if_pos rfl⟩
  obtain ⟨later, shape⟩ := first
  refine ⟨u.content.take (u.curLen 0).toNat, ?_, ?_⟩
  · rw [List.length_take]
    omega
  · simp only [payloads, shape, chunkPayloads, read, List.mem_cons, true_or, or_true]

/-- Whatever the server says it already has, every message of the upload is accepted. -/
def AllAccepted : Prop := ∀ bitmap, ∀ payload ∈ u.payloads bitmap, ServerAccepts payload

/-- The server accepts every message of an upload exactly when no chunk is sent or the largest
    one leaves room for the seventeen bytes before its data. -/
theorem upload_accepted_exact :
    u.AllAccepted ↔
      (u.content.length + u.chunkSize.toNat - 1) / u.chunkSize.toNat % 2 ^ 32 = 0 ∨
        min u.content.length u.chunkSize.toNat + 17 ≤ 65536 := by
  have word := u.chunkSize.toNat_lt
  rw [← totalChunks_toNat]
  constructor
  · intro accepted
    by_cases chunks : u.totalChunks.toNat = 0
    · exact .inl chunks
    · obtain ⟨data, length, mem⟩ := u.first_chunk chunks
      have size := u.length_chunkPayload 0 data
      have fits := (serverAccepts_iff (by omega)).mp (accepted [] _ mem)
      exact .inr (by omega)
  · intro small bitmap payload mem
    simp only [payloads, List.mem_cons] at mem
    rcases mem with rfl | rfl | chunk
    · have size := u.length_startPayload
      exact (serverAccepts_iff (by omega)).mpr (by omega)
    · have size := u.length_queryPayload
      exact (serverAccepts_iff (by omega)).mpr (by omega)
    · obtain ⟨chunkIndex, inside, data, read, rfl⟩ := u.chunkPayloads_mem chunk
      have size := u.length_chunkPayload chunkIndex data
      have bound := u.readChunk_length read
      rcases small with none | fits
      · simp [missingChunks, none] at inside
      · exact (serverAccepts_iff (by omega)).mpr (by omega)

def fullChunk : Upload where
  filePath := CString.bytes "full.bin"
  content := List.replicate 65536 0
  off_t_size := by simp only [List.length_replicate]; omega
  divisible := by decide

theorem full_chunk_refused : ¬ ∀ u : Upload, u.AllAccepted := by
  intro claimed
  have length : fullChunk.content.length = 65536 := List.length_replicate
  have chunk : fullChunk.chunkSize.toNat = 65536 := rfl
  have chunks : fullChunk.totalChunks.toNat ≠ 0 := by
    rw [totalChunks_toNat, length, chunk]
    decide
  obtain ⟨data, size, mem⟩ := fullChunk.first_chunk chunks
  have payload := fullChunk.length_chunkPayload 0 data
  have fits := (serverAccepts_iff (by omega)).mp (claimed fullChunk [] _ mem)
  omega

end Upload

end MainClient

namespace FileTransferManager
open WebSocketCodec Upgrade StreamParser

/- Every FILE_QUERY_RESPONSE tells the state of a live session. -/
theorem response_session {sys : SysResults} {payload reply : Bytes} {m : Manager}
    (mem : reply ∈ (handleClientMessage sys payload m).2)
    (response : reply.head? = some MSG_FILE_QUERY_RESPONSE) :
    ∃ st, (handleClientMessage sys payload m).1.g_states.lookup (readU64BE payload.tail) =
        some st ∧
      reply = queryResponse (readU64BE payload.tail) st.total_chunks st.bitmap := by
  have all := handled sys payload m
  generalize result : handleClientMessage sys payload m = outcome at mem all ⊢
  cases all with
  | refused rejected =>
    have heads := (rejected_replies sys rejected).2
    rw [result] at heads
    rcases heads reply mem with error | ack
    · rw [error] at response
      exact absurd (Option.some.inj response) (by decide)
    · rw [ack] at response
      exact absurd (Option.some.inj response) (by decide)
  | @resumed p r ex checked found same =>
    have own : readU64BE (MSG_FILE_START :: p).tail = r.file_id := (checkStart_ok checked).2.1.symm
    rw [own]
    refine ⟨_, AList.lookup_insert _, ?_⟩
    rw [List.mem_singleton.mp mem, resumes_total same]
  | @created p r checked fresh =>
    have own : readU64BE (MSG_FILE_START :: p).tail = r.file_id := (checkStart_ok checked).2.1.symm
    rw [own]
    rcases createSession_cases sys r (replaced m r.file_id) with
      ⟨_, created⟩ | ⟨fd, _, _, ⟨_, created⟩ | ⟨_, created⟩⟩
    · rw [created] at mem
      rw [List.mem_singleton.mp mem] at response
      exact absurd (Option.some.inj response) (by decide)
    · rw [created] at mem
      rw [List.mem_singleton.mp mem] at response
      exact absurd (Option.some.inj response) (by decide)
    · rw [created] at mem ⊢
      exact ⟨_, AList.lookup_insert _, List.mem_singleton.mp mem⟩
  | @queried p r checked =>
    have own : readU64BE (MSG_FILE_QUERY :: p).tail = r.file_id := (checkQuery_ok checked).2.1.symm
    rw [own]
    exact ⟨_, AList.lookup_insert _, List.mem_singleton.mp mem⟩
  | stored =>
    rcases storeChunk_replies mem with ⟨what, rfl⟩ | ⟨status, rfl⟩ | ⟨ok, rfl⟩
    · exact absurd (Option.some.inj response) (by decide)
    · exact absurd (Option.some.inj response) (by decide)
    · exact absurd (Option.some.inj response) (by decide)

/-- With the default limit the client's parser delivers the frame the server builds around the
    reply, and the client reads the session's chunks and bitmap out of it. -/
def ClientReads (reply : Bytes) (st : FileState) : Prop :=
  (∀ (ssl : OpenSsl) (zeroRtt : Option String) (now : UInt64) (seen : NonceTable),
    DeliversBinary ssl ⟨none, zeroRtt⟩ now seen false (buildBinaryFrame reply) reply) ∧
  MainClient.parseQueryResponse reply = some (st.total_chunks, st.bitmap)

theorem clientReads_iff {disk : FileSystem Bytes} {id : UInt64} {st : FileState}
    (session : Session disk id st) :
    ClientReads (queryResponse id st.total_chunks st.bitmap) st ↔
      st.total_chunks.toNat ≤ 524152 := by
  have length := length_queryResponse id st.total_chunks st.bitmap
  have bitmap := session.bitmap
  have word := st.total_chunks.toNat_lt
  constructor
  · intro reads
    have fits := (server_binary_iff MainClient.someSsl ⟨none, none⟩ 0 [] (by omega)).mp
      (reads.1 _ _ _ _)
    rw [MainClient.default_limit] at fits
    omega
  · intro few
    refine ⟨fun ssl zeroRtt now seen => ?_, (response_decoded id bitmap).1⟩
    apply (server_binary_iff ssl ⟨none, zeroRtt⟩ now seen (by omega)).mpr
    rw [MainClient.default_limit]
    omega

/-- Over every run: a FILE_QUERY_RESPONSE tells the state of its session, and the client reads
    it exactly when the session has at most 524152 chunks; a live session can always be asked
    for one. -/
theorem responses_readable_exact (disk : FileSystem Bytes) (calls : List Call) :
    (∀ (sys : SysResults) (payload reply : Bytes),
      reply ∈ (handleClientMessage sys payload (Run.final perform (start disk) calls)).2 →
      reply.head? = some MSG_FILE_QUERY_RESPONSE →
      ∃ st, (handleClientMessage sys payload (Run.final perform (start disk)
          calls)).1.g_states.lookup (readU64BE payload.tail) = some st ∧
        (ClientReads reply st ↔ st.total_chunks.toNat ≤ 524152)) ∧
    ∀ id st, (Run.final perform (start disk) calls).g_states.lookup id = some st →
      ∀ (sys : SysResults) (payload : Bytes), AsksAgain id st payload →
        ∃ reply, reply.head? = some MSG_FILE_QUERY_RESPONSE ∧
          (handleClientMessage sys payload (Run.final perform (start disk) calls)).2 = [reply] := by
  have sound := reachable_sound ⟨start disk, calls, ⟨disk, rfl⟩, rfl⟩
  constructor
  · intro sys payload reply mem response
    obtain ⟨st, found, rfl⟩ := response_session mem response
    have session := (handleClientMessage_effect sys payload sound).1 _ st found
    exact ⟨st, found, clientReads_iff session⟩
  · intro id st found sys payload asks
    rw [asked_reply found asks sys]
    exact ⟨_, rfl, rfl⟩

def manyChunksStart : Bytes := startPayload 7 524153 1 524153 0 []

theorem many_chunks_unreadable :
    ¬ ∀ (disk : FileSystem Bytes) (calls : List Call) (sys : SysResults) (payload reply : Bytes),
      reply ∈ (handleClientMessage sys payload (Run.final perform (start disk) calls)).2 →
      reply.head? = some MSG_FILE_QUERY_RESPONSE →
      ∃ st, (handleClientMessage sys payload (Run.final perform (start disk)
          calls)).1.g_states.lookup (readU64BE payload.tail) = some st ∧
        ClientReads reply st := by
  intro claimed
  let r : StartRequest := ⟨7, 524153, 1, 524153, 0, []⟩
  have checked : checkStart manyChunksStart.tail = .ok r :=
    checkStart_startPayload r (by decide) (by decide) (by decide)
  have created : handleClientMessage willing manyChunksStart (start .empty) =
      createSession willing r (start .empty) := by
    have shape : manyChunksStart = MSG_FILE_START :: manyChunksStart.tail := rfl
    rw [shape]
    simp only [handleClientMessage, ↓reduceIte, handleFileStart, checked]
    rfl
  rcases createSession_cases willing r (start .empty) with
    ⟨none, _⟩ | ⟨fd, _, _, ⟨none, _⟩ | ⟨_, result⟩⟩
  · simp [openTemp, willing, start, FileSystem.empty] at none
  · simp only [truncateTo, willing, Bool.true_eq_false, false_or, ite_eq_left_iff] at none
    exact absurd (none (by decide)) (by simp)
  · have run := created.trans result
    generalize fresh : (newSession r fd willing.now_seconds).bitmap = bitmap at run
    have chunks : r.total_chunks.toNat = 524153 := rfl
    have size : bitmap.length = (r.total_chunks.toNat + 7) / 8 := by
      rw [← fresh]
      exact List.length_replicate
    have mem : queryResponse r.file_id r.total_chunks bitmap ∈
        (handleClientMessage willing manyChunksStart (start .empty)).2 := by
      rw [run]
      exact List.mem_singleton_self _
    obtain ⟨st, _, reads⟩ := claimed .empty [] willing manyChunksStart _ mem rfl
    have length := length_queryResponse r.file_id r.total_chunks bitmap
    have fits := (server_binary_iff MainClient.someSsl ⟨.none, .none⟩ 0 [] (by omega)).mp
      (reads.1 _ _ _ _)
    rw [MainClient.default_limit] at fits
    omega

end FileTransferManager

