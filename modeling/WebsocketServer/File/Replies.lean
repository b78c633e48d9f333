import WebsocketServer.File.Steps

/- What the replies of the upload server say about the message they answer. -/
namespace FileTransferManager

/-- A message that the checks refuse. -/
def Rejected (m : Manager) : Bytes → Prop
  | [] => True
  | msgType :: p =>
      if msgType = MSG_FILE_START then ∃ reply, checkStart p = .error reply
      else if msgType = MSG_FILE_QUERY then ∃ reply, checkQuery m p = .error reply
      else if msgType = MSG_FILE_CHUNK then ∃ replies, checkChunk m p = .error replies
      else True

def IsFinishAck (file_id : UInt64) (reply : Bytes) : Prop := ∃ ok, reply = finishAck file_id ok

theorem finishAck_head {id : UInt64} {reply : Bytes} (finish : IsFinishAck id reply) :
    reply.head? = some MSG_FILE_FINISH_ACK := by
  obtain ⟨ok, rfl⟩ := finish
  rfl

theorem finishAck_id {a b : UInt64} {ok : UInt8} (finish : IsFinishAck a (finishAck b ok)) :
    a = b := by
  obtain ⟨ok', same⟩ := finish
  simp only [finishAck, List.cons_append, List.cons.injEq, true_and] at same
  exact (writeU64BE_injective same).1.symm

theorem chunkAck_status {a b : UInt64} {i j : UInt32} {s t : UInt8}
    (same : chunkAck a i s = chunkAck b j t) : s = t := by
  have last : [s] = [t] := (List.append_inj' same rfl).2
  exact List.head_eq_of_cons_eq last

theorem readFilename_error {p reply : Bytes} (refused : readFilename p = .error reply) :
    ∃ reason, reply = mkError .INVALID_ARGUMENT reason := by
  unfold readFilename at refused
  split at refused
  · split at refused
    · injection refused with refused
      exact ⟨_, refused.symm⟩
    · simp only at refused
      split at refused
      · injection refused with refused
        exact ⟨_, refused.symm⟩
      · split at refused
        · injection refused with refused
          exact ⟨_, refused.symm⟩
        · contradiction
  · contradiction

theorem checkStart_error {p reply : Bytes} (refused : checkStart p = .error reply) :
    ∃ reason, reply = mkError .INVALID_ARGUMENT reason := by
  unfold checkStart at refused
  split at refused
  · injection refused with refused
    exact ⟨_, refused.symm⟩
  · split at refused
    · rename_i filename
      injection refused with refused
      subst refused
      exact readFilename_error filename
    · simp only at refused
      split at refused
      · injection refused with refused
        exact ⟨_, refused.symm⟩
      · contradiction

theorem checkQuery_error {m : Manager} {p reply : Bytes} (refused : checkQuery m p = .error reply) :
    ∃ code reason, code ≠ .INTERNAL_ERROR ∧ reply = mkError code reason := by
  unfold checkQuery at refused
  split at refused
  · injection refused with refused
    exact ⟨.INVALID_ARGUMENT, _, by decide, refused.symm⟩
  · simp only at refused
    split at refused
    · injection refused with refused
      exact ⟨.FILE_STATE_NOT_FOUND, _, by decide, refused.symm⟩
    · contradiction

theorem checkChunk_error {m : Manager} {p : Bytes} {replies : List Bytes}
    (refused : checkChunk m p = .error replies) :
    ∃ code reason, code ≠ .INTERNAL_ERROR ∧
      (replies = [mkError code reason] ∨
        ∃ id i, replies = [mkError code reason, chunkAck id i 0]) := by
  unfold checkChunk at refused
  split at refused
  · injection refused with refused
    exact ⟨.INVALID_ARGUMENT, _, by decide, .inl refused.symm⟩
  · simp only at refused
    split at refused
    · injection refused with refused
      exact ⟨.FILE_STATE_NOT_FOUND, _, by decide, .inl refused.symm⟩
    · split at refused
      · injection refused with refused
        exact ⟨.FILE_CHUNK_OUT_OF_RANGE, _, by decide, .inl refused.symm⟩
      · split at refused
        · injection refused with refused
          exact ⟨.INVALID_ARGUMENT, _, by decide, .inl refused.symm⟩
        · split at refused
          · injection refused with refused
            exact ⟨.PROTOCOL_VIOLATION, _, by decide, .inl refused.symm⟩
          · split at refused
            · injection refused with refused
              exact ⟨.FILE_CHUNK_CRC_MISMATCH, _, by decide, .inr ⟨_, _, refused.symm⟩⟩
            · contradiction

/- A refused message changes nothing and is answered by errors and acknowledgements only. -/
theorem rejected_replies {m : Manager} {payload : Bytes} (sys : SysResults)
    (rejected : Rejected m payload) :
    (handleClientMessage sys payload m).1 = m ∧
      ∀ reply ∈ (handleClientMessage sys payload m).2,
        reply.head? = some MSG_FILE_ERROR ∨ reply.head? = some MSG_FILE_CHUNK_ACK := by
  have error_head (code : error_codes.Code) (reason : String) :
      (mkError code reason).head? = some MSG_FILE_ERROR := rfl
  cases payload with
  | nil => exact ⟨rfl, by simp [handleClientMessage]⟩
  | cons msgType p =>
    simp only [Rejected] at rejected
    simp only [handleClientMessage]
    by_cases start : msgType = MSG_FILE_START
    · rw [if_pos start] at rejected
      obtain ⟨reply, refused⟩ := rejected
      obtain ⟨reason, rfl⟩ := checkStart_error refused
      simp only [start, ↓reduceIte, handleFileStart, refused, List.mem_singleton, true_and]
      intro reply same
      rw [same]
      exact .inl (error_head _ _)
    · rw [if_neg start] at rejected ⊢
      by_cases query : msgType = MSG_FILE_QUERY
      · rw [if_pos query] at rejected
        obtain ⟨reply, refused⟩ := rejected
        obtain ⟨code, reason, _, rfl⟩ := checkQuery_error refused
        simp only [query, ↓reduceIte, handleFileQuery, refused, List.mem_singleton, true_and]
        intro reply same
        rw [same]
        exact .inl (error_head _ _)
      · rw [if_neg query] at rejected ⊢
        by_cases chunk : msgType = MSG_FILE_CHUNK
        · rw [if_pos chunk] at rejected
          obtain ⟨replies, refused⟩ := rejected
          obtain ⟨code, reason, _, shape⟩ := checkChunk_error refused
          simp only [chunk, ↓reduceIte, handleFileChunk, refused, true_and]
          intro reply mem
          rcases shape with rfl | ⟨id, i, rfl⟩
          · rw [List.mem_singleton.mp mem]
            exact .inl (error_head _ _)
          · rcases List.mem_cons.mp mem with rfl | last
            · exact .inl (error_head _ _)
            · rw [List.mem_singleton.mp last]
              exact .inr rfl
        · rw [if_neg chunk]
          constructor
          · rfl
          · intro reply mem
            rw [List.mem_singleton.mp mem]
            exact .inl (error_head _ _)

theorem rejected_unchanged {m : Manager} {payload : Bytes} (sys : SysResults)
    (rejected : Rejected m payload) :
    (handleClientMessage sys payload m).1 = m ∧
      ∀ reply ∈ (handleClientMessage sys payload m).2,
        reply.head? ≠ some MSG_FILE_FINISH_ACK := by
  obtain ⟨same, heads⟩ := rejected_replies sys rejected
  refine ⟨same, fun reply mem finish => ?_⟩
  rcases heads reply mem with error | ack
  · rw [error] at finish
    exact absurd (Option.some.inj finish) (by decide)
  · rw [ack] at finish
    exact absurd (Option.some.inj finish) (by decide)

/-- The table and the disk that open finds: a session with other parameters is gone. -/
def replaced (m : Manager) (id : UInt64) : Manager :=
  match m.g_states.lookup id with
  | none => m
  | some ex => dropSession m id ex

inductive Handled (sys : SysResults) (m : Manager) : Bytes → Manager × List Bytes → Prop where
  | refused {payload : Bytes} {replies : List Bytes} (rejected : Rejected m payload)
      (plain : ∀ reply ∈ replies, reply.head? ≠ some MSG_FILE_FINISH_ACK) :
      Handled sys m payload (m, replies)
  | resumed {p : Bytes} {r : StartRequest} {ex : FileState} (checked : checkStart p = .ok r)
      (found : m.g_states.lookup r.file_id = some ex) (same : r.resumes ex = true) :
      Handled sys m (MSG_FILE_START :: p) (touch m r.file_id ex sys.now_seconds,
        [queryResponse r.file_id r.total_chunks ex.bitmap])
  | created {p : Bytes} {r : StartRequest} (checked : checkStart p = .ok r)
      (fresh : ∀ ex, m.g_states.lookup r.file_id = some ex → r.resumes ex = false) :
      Handled sys m (MSG_FILE_START :: p) (createSession sys r (replaced m r.file_id))
  | queried {p : Bytes} {r : QueryRequest} (checked : checkQuery m p = .ok r) :
      Handled sys m (MSG_FILE_QUERY :: p) (touch m r.file_id r.st sys.now_seconds,
        [queryResponse r.file_id r.st.total_chunks r.st.bitmap])
  | stored {p : Bytes} {r : ChunkRequest} (checked : checkChunk m p = .ok r) :
      Handled sys m (MSG_FILE_CHUNK :: p) (storeChunk sys r m)

theorem refused_handled {sys : SysResults} {m : Manager} {payload : Bytes}
    (rejected : Rejected m payload) :
    Handled sys m payload (handleClientMessage sys payload m) := by
  obtain ⟨same, plain⟩ := rejected_unchanged sys rejected
  cases result : handleClientMessage sys payload m with
  | mk m' replies =>
    rw [result] at same plain
    simp only at same plain
    subst same
    exact .refused rejected plain

theorem start_handled (sys : SysResults) (m : Manager) (p : Bytes) :
    Handled sys m (MSG_FILE_START :: p) (handleClientMessage sys (MSG_FILE_START :: p) m) := by
  cases checked : checkStart p with
  | error reply =>
    exact refused_handled (by simp only [Rejected, ↓reduceIte]; exact ⟨reply, checked⟩)
  | ok r =>
    have run : handleClientMessage sys (MSG_FILE_START :: p) m = handleFileStart sys p m := by
      simp only [handleClientMessage, ↓reduceIte]
    rw [run]
    cases found : m.g_states.lookup r.file_id with
    | none =>
      have fresh : Handled sys m _ _ := .created checked
        (fun ex some => by rw [found] at some; contradiction)
      simpa only [replaced, handleFileStart, checked, found] using fresh
    | some ex =>
      cases same : r.resumes ex with
      | true =>
        have resumed : Handled sys m _ _ := .resumed checked found same
        simpa only [handleFileStart, checked, found, same, ↓reduceIte] using resumed
      | false =>
        have fresh : Handled sys m _ _ := .created checked
          (fun ex' some => by rw [found] at some; injection some with here; exact here ▸ same)
        simpa only [replaced, handleFileStart, checked, found, same, Bool.false_eq_true,
          ↓reduceIte] using fresh

theorem query_handled (sys : SysResults) (m : Manager) (p : Bytes) :
    Handled sys m (MSG_FILE_QUERY :: p) (handleClientMessage sys (MSG_FILE_QUERY :: p) m) := by
  have code : MSG_FILE_QUERY ≠ MSG_FILE_START := by decide
  cases checked : checkQuery m p with
  | error reply =>
    exact refused_handled (by simp only [Rejected, code, ↓reduceIte]; exact ⟨reply, checked⟩)
  | ok r =>
    have queried : Handled sys m _ _ := .queried checked
    simpa only [handleClientMessage, code, handleFileQuery, checked, ↓reduceIte] using queried

theorem chunk_handled (sys : SysResults) (m : Manager) (p : Bytes) :
    Handled sys m (MSG_FILE_CHUNK :: p) (handleClientMessage sys (MSG_FILE_CHUNK :: p) m) := by
  have code : MSG_FILE_CHUNK ≠ MSG_FILE_START ∧ MSG_FILE_CHUNK ≠ MSG_FILE_QUERY := by decide
  cases checked : checkChunk m p with
  | error replies =>
    exact refused_handled (by
      simp only [Rejected, code.1, code.2, ↓reduceIte]; exact ⟨replies, checked⟩)
  | ok r =>
    have stored : Handled sys m _ _ := .stored checked
    simpa only [handleClientMessage, code.1, code.2, handleFileChunk, checked, ↓reduceIte]
      using stored

theorem handled (sys : SysResults) (payload : Bytes) (m : Manager) :
    Handled sys m payload (handleClientMessage sys payload m) := by
  cases payload with
  | nil => exact refused_handled trivial
  | cons msgType p =>
    by_cases start : msgType = MSG_FILE_START
    · subst start
      exact start_handled sys m p
    · by_cases query : msgType = MSG_FILE_QUERY
      · subst query
        exact query_handled sys m p
      · by_cases chunk : msgType = MSG_FILE_CHUNK
        · subst chunk
          exact chunk_handled sys m p
        · exact refused_handled (by simp only [Rejected, start, query, chunk, ↓reduceIte])

theorem finishUpload_cases (sys : SysResults) (id : UInt64) (st : FileState) (m : Manager) :
    (∃ what, computeFdCrc32 sys m.disk st.fd = .error what ∧
      finishUpload sys id st m = (m, [mkError .INTERNAL_ERROR what])) ∨
    (computeFdCrc32 sys m.disk st.fd = .ok st.expected_crc32 ∧
      finishUpload sys id st m = (⟨m.g_states.erase id,
        if sys.renameOk then (closeFd m.disk st.fd).rename st.temp_path
          (makeFinalPath st.file_id st.final_display_name) else closeFd m.disk st.fd⟩,
        [finishAck id 1])) ∨
    (∃ fileCrc, computeFdCrc32 sys m.disk st.fd = .ok fileCrc ∧ fileCrc ≠ st.expected_crc32 ∧
      finishUpload sys id st m = (⟨m.g_states.erase id,
        if sys.unlinkOk then (closeFd m.disk st.fd).unlink st.temp_path
          else closeFd m.disk st.fd⟩, [finishAck id 0])) := by
  unfold finishUpload
  cases crc : computeFdCrc32 sys m.disk st.fd with
  | error what => exact .inl ⟨what, rfl, rfl⟩
  | ok fileCrc =>
    by_cases passes : fileCrc = st.expected_crc32
    · right; left
      simp only [passes, ↓reduceIte, and_self]
    · right; right
      refine ⟨fileCrc, rfl, passes, ?_⟩
      simp only [passes, ↓reduceIte]

theorem storeChunk_cases (sys : SysResults) (r : ChunkRequest) (m : Manager) :
    let write := pwriteAt sys m.disk r.st.fd r.chunkData
      (chunkOffset r.chunk_index r.st.chunk_size)
    let m₁ := recordChunk sys r { m with disk := write.2 }
    let st := chunkState sys r
    let ack := chunkAck r.file_id r.chunk_index
      (if bitmapGet r.st.bitmap r.chunk_index then 0 else 1)
    (write.1 ≠ some r.chunkData.length ∧
      storeChunk sys r m =
        ({ m with disk := write.2 }, [mkError .INTERNAL_ERROR "pwrite failed"])) ∨
    (write.1 = some r.chunkData.length ∧ st.received_count ≠ st.total_chunks ∧
      storeChunk sys r m = (m₁, [ack])) ∨
    (write.1 = some r.chunkData.length ∧ st.received_count = st.total_chunks ∧
      storeChunk sys r m = ((finishUpload sys r.file_id st m₁).1,
        ack :: (finishUpload sys r.file_id st m₁).2)) := by
  intro write m₁ st ack
  have shape : storeChunk sys r m =
      if write.1 ≠ some r.chunkData.length then
        ({ m with disk := write.2 }, [mkError .INTERNAL_ERROR "pwrite failed"])
      else if st.received_count = st.total_chunks then
        ((finishUpload sys r.file_id st m₁).1, ack :: (finishUpload sys r.file_id st m₁).2)
      else (m₁, [ack]) := rfl
  by_cases whole : write.1 = some r.chunkData.length
  · rw [if_neg (not_not.mpr whole)] at shape
    by_cases full : st.received_count = st.total_chunks
    · exact .inr (.inr ⟨whole, full, by rw [shape, if_pos full]⟩)
    · exact .inr (.inl ⟨whole, full, by rw [shape, if_neg full]⟩)
  · exact .inl ⟨whole, by rw [shape, if_pos whole]⟩

theorem finishUpload_replies {sys : SysResults} {id : UInt64} {st : FileState} {m : Manager}
    {reply : Bytes} (mem : reply ∈ (finishUpload sys id st m).2) :
    (∃ what, reply = mkError .INTERNAL_ERROR what) ∨ ∃ ok, reply = finishAck id ok := by
  rcases finishUpload_cases sys id st m with ⟨what, _, result⟩ | ⟨_, result⟩ | ⟨_, _, _, result⟩ <;>
    rw [result] at mem
  · exact .inl ⟨what, List.mem_singleton.mp mem⟩
  · exact .inr ⟨1, List.mem_singleton.mp mem⟩
  · exact .inr ⟨0, List.mem_singleton.mp mem⟩

theorem storeChunk_replies {sys : SysResults} {r : ChunkRequest} {m : Manager} {reply : Bytes}
    (mem : reply ∈ (storeChunk sys r m).2) :
    (∃ what, reply = mkError .INTERNAL_ERROR what) ∨
      (∃ status, reply = chunkAck r.file_id r.chunk_index status) ∨
        ∃ ok, reply = finishAck r.file_id ok := by
  rcases storeChunk_cases sys r m with ⟨_, result⟩ | ⟨_, _, result⟩ | ⟨_, _, result⟩ <;>
    rw [result] at mem
  · exact .inl ⟨_, List.mem_singleton.mp mem⟩
  · exact .inr (.inl ⟨_, List.mem_singleton.mp mem⟩)
  · rcases List.mem_cons.mp mem with ack | later
    · exact .inr (.inl ⟨_, ack⟩)
    · rcases finishUpload_replies later with error | finish
      · exact .inl error
      · exact .inr (.inr finish)

theorem createSession_cases (sys : SysResults) (r : StartRequest) (m : Manager) :
    (openTemp sys m.disk (makeTempPath r.file_id) = none ∧
      createSession sys r m = (m, [mkError .INTERNAL_ERROR "open temp file failed"])) ∨
    ∃ fd, m.disk.fds fd = none ∧
      let disk := m.disk.openTruncate (makeTempPath r.file_id) fd
      let st := newSession r fd sys.now_seconds
      let length := r.file_size.toInt64.toInt
      openTemp sys m.disk (makeTempPath r.file_id) = some (fd, disk) ∧
      ((truncateTo sys disk fd r.file_size.toInt64 = none ∧
        createSession sys r m =
          ({ m with disk := disk.close fd }, [mkError .INTERNAL_ERROR "ftruncate failed"])) ∨
      (0 ≤ length ∧
        createSession sys r m =
          (⟨m.g_states.insert r.file_id st, disk.ftruncate fd length.toNat⟩,
            [queryResponse r.file_id r.total_chunks st.bitmap]))) := by
  unfold createSession
  cases opened : openTemp sys m.disk (makeTempPath r.file_id) with
  | none => exact .inl ⟨rfl, rfl⟩
  | some handle =>
    obtain ⟨fd, disk⟩ := handle
    obtain ⟨free, rfl⟩ := openTemp_some opened
    right
    refine ⟨fd, free, rfl, ?_⟩
    cases truncated : truncateTo sys (m.disk.openTruncate (makeTempPath r.file_id) fd) fd
      r.file_size.toInt64 with
    | none => exact .inl ⟨rfl, by simp only [truncated]⟩
    | some disk =>
      obtain ⟨nonnegative, rfl⟩ := truncateTo_some truncated
      exact .inr ⟨nonnegative, by simp only [truncated]⟩

theorem createSession_replies {sys : SysResults} {r : StartRequest} {m : Manager} {reply : Bytes}
    (mem : reply ∈ (createSession sys r m).2) :
    (∃ what, reply = mkError .INTERNAL_ERROR what) ∨
      ∃ bitmap, reply = queryResponse r.file_id r.total_chunks bitmap := by
  rcases createSession_cases sys r m with ⟨_, result⟩ | ⟨fd, _, _, ⟨_, result⟩ | ⟨_, result⟩⟩ <;>
    rw [result] at mem
  · exact .inl ⟨_, List.mem_singleton.mp mem⟩
  · exact .inl ⟨_, List.mem_singleton.mp mem⟩
  · exact .inr ⟨_, List.mem_singleton.mp mem⟩

/- Only an accepted chunk is answered by FILE_FINISH_ACK, and for its own id. -/
theorem finishAck_stored {sys : SysResults} {payload : Bytes} {m : Manager} {id : UInt64}
    {reply : Bytes} (mem : reply ∈ (handleClientMessage sys payload m).2)
    (finish : IsFinishAck id reply) :
    ∃ p r, payload = MSG_FILE_CHUNK :: p ∧ checkChunk m p = .ok r ∧ id = r.file_id ∧
      handleClientMessage sys payload m = storeChunk sys r m := by
  have head := finishAck_head finish
  have all := handled sys payload m
  generalize result : handleClientMessage sys payload m = outcome at mem all
  cases all with
  | refused _ plain => exact absurd head (plain reply mem)
  | resumed =>
    rw [List.mem_singleton.mp mem] at head
    exact absurd (Option.some.inj head) (by decide)
  | created =>
    rcases createSession_replies mem with ⟨what, rfl⟩ | ⟨bitmap, rfl⟩ <;>
      exact absurd (Option.some.inj head) (by decide)
  | queried =>
    rw [List.mem_singleton.mp mem] at head
    exact absurd (Option.some.inj head) (by decide)
  | @stored p r checked =>
    refine ⟨p, r, rfl, checked, ?_, rfl⟩
    rcases storeChunk_replies mem with ⟨what, rfl⟩ | ⟨status, rfl⟩ | ⟨ok, rfl⟩
    · exact absurd (Option.some.inj head) (by decide)
    · exact absurd (Option.some.inj head) (by decide)
    · exact finishAck_id finish

theorem finishAck_addressed {sys : SysResults} {payload : Bytes} {m : Manager} {id : UInt64}
    {reply : Bytes} (mem : reply ∈ (handleClientMessage sys payload m).2)
    (finish : IsFinishAck id reply) : id = readU64BE payload.tail := by
  obtain ⟨p, r, rfl, checked, rfl, _⟩ := finishAck_stored mem finish
  exact (checkChunk_ok checked).id

end FileTransferManager
