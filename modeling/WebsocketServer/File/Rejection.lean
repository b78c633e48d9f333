import WebsocketServer.File.OutOfMemory

/- What a FILE_ERROR leaves behind. The checks come before every effect; a system call that
   fails, or an allocation, comes after some. -/
namespace FileTransferManager
open FileSystem

def Unchanged (m m' : Manager) : Prop :=
  (∀ id, m'.g_states.lookup id = m.g_states.lookup id) ∧ ∀ q, m'.disk.read q = m.disk.read q

def acceptedStart (payload : Bytes) : Option StartRequest :=
  if payload.head? = some MSG_FILE_START then (checkStart payload.tail).toOption else none

def writableBytes (sys : SysResults) (r : ChunkRequest) : Nat :=
  if chunkOffset r.chunk_index r.st.chunk_size < 0 then 0 else sys.pwriteCount.getD 0

/-- The bytes that reach the file are there already. -/
def SameBytes (sys : SysResults) (m : Manager) (r : ChunkRequest) : Prop :=
  (m.disk.read (makeTempPath r.file_id)).map
      (overwrite (chunkOffset r.chunk_index r.st.chunk_size).toInt.toNat
        (r.chunkData.take (writableBytes sys r))) =
    m.disk.read (makeTempPath r.file_id)

def Resumes (m : Manager) (r : StartRequest) : Prop :=
  ∃ ex, m.g_states.lookup r.file_id = some ex ∧ r.resumes ex = true

/-- A FILE_START that replaces no session and cannot open its file, or leaves it as it was. -/
def LosesNothing (sys : SysResults) (m : Manager) (r : StartRequest) (same : Prop) : Prop :=
  m.g_states.lookup r.file_id = none ∧
    (openTemp sys m.disk (makeTempPath r.file_id) = none ∨ same)

/-- What open and ftruncate make of the file. -/
def sizedBytes (sys : SysResults) (r : StartRequest) : Bytes :=
  if Untruncated sys r then [] else List.replicate r.file_size.toNat 0

/-- A FILE_START that begins no session and truncates no bytes; a FILE_CHUNK that writes nothing
    new and is recorded only if it had been before. -/
def HarmlessMessage (sys : SysResults) (m : Manager) (payload : Bytes) : Prop :=
  (∀ r ∈ acceptedStart payload, Resumes m r ∨ LosesNothing sys m r
    (Untruncated sys r ∧ m.disk.read (makeTempPath r.file_id) = some [])) ∧
  ∀ r ∈ acceptedChunk m payload, SameBytes sys m r ∧
    (r.chunkData.length ≤ writableBytes sys r → bitmapGet r.st.bitmap r.chunk_index = true)

/-- Nothing is lost when this fails. -/
def Harmless (m : Manager) : Event → Prop
  | .call (.message sys payload) | .noReply sys payload => HarmlessMessage sys m payload
  | .noMemory sys p => ∀ r ∈ acceptedStart (MSG_FILE_START :: p), LosesNothing sys m r
      (m.disk.read (makeTempPath r.file_id) = some (sizedBytes sys r))
  | .call (.cleanup ..) => True

theorem rejected_accepts_nothing {m : Manager} {payload : Bytes} (rejected : Rejected m payload) :
    acceptedStart payload = none ∧ acceptedChunk m payload = none := by
  cases payload with
  | nil => exact ⟨rfl, rfl⟩
  | cons msgType p =>
    simp only [Rejected] at rejected
    simp only [acceptedStart, acceptedChunk, List.head?_cons, Option.some.injEq, List.tail_cons]
    by_cases start : msgType = MSG_FILE_START
    · rw [if_pos start] at rejected
      obtain ⟨reply, refused⟩ := rejected
      have other : msgType ≠ MSG_FILE_CHUNK := by
        rw [start]
        decide
      rw [if_pos start, if_neg other, refused]
      exact ⟨rfl, rfl⟩
    · rw [if_neg start] at rejected ⊢
      refine ⟨rfl, ?_⟩
      by_cases chunk : msgType = MSG_FILE_CHUNK
      · have other : msgType ≠ MSG_FILE_QUERY := by
          rw [chunk]
          decide
        rw [if_neg other, if_pos chunk] at rejected
        obtain ⟨replies, refused⟩ := rejected
        rw [if_pos chunk, refused]
        rfl
      · rw [if_neg chunk]

theorem accepted_start {p : Bytes} {r : StartRequest} (m : Manager)
    (checked : checkStart p = .ok r) :
    acceptedStart (MSG_FILE_START :: p) = some r ∧
      acceptedChunk m (MSG_FILE_START :: p) = none := by
  have other : MSG_FILE_START ≠ MSG_FILE_CHUNK := by decide
  simp only [acceptedStart, acceptedChunk, List.head?_cons, Option.some.injEq, other, ↓reduceIte,
    List.tail_cons, checked]
  exact ⟨rfl, trivial⟩

theorem accepted_chunk {m : Manager} {p : Bytes} {r : ChunkRequest}
    (checked : checkChunk m p = .ok r) :
    acceptedStart (MSG_FILE_CHUNK :: p) = none ∧
      acceptedChunk m (MSG_FILE_CHUNK :: p) = some r := by
  have other : MSG_FILE_CHUNK ≠ MSG_FILE_START := by decide
  simp only [acceptedStart, acceptedChunk, List.head?_cons, Option.some.injEq, other, ↓reduceIte,
    List.tail_cons, checked]
  exact ⟨trivial, rfl⟩

theorem query_accepts_nothing (m : Manager) (p : Bytes) :
    acceptedStart (MSG_FILE_QUERY :: p) = none ∧ acceptedChunk m (MSG_FILE_QUERY :: p) = none := by
  have start : MSG_FILE_QUERY ≠ MSG_FILE_START := by decide
  have chunk : MSG_FILE_QUERY ≠ MSG_FILE_CHUNK := by decide
  simp only [acceptedStart, acceptedChunk, List.head?_cons, Option.some.injEq, start, chunk,
    ↓reduceIte, and_self]

theorem pwriteAt_whole (sys : SysResults) {r : ChunkRequest} (disk : FileSystem Bytes) (fd : Nat)
    (nonempty : r.chunkData ≠ []) :
    (pwriteAt sys disk (some fd) r.chunkData (chunkOffset r.chunk_index r.st.chunk_size)).1 =
        some r.chunkData.length ↔ r.chunkData.length ≤ writableBytes sys r := by
  have positive := List.length_pos_iff.mpr nonempty
  simp only [pwriteAt, writableBytes]
  cases sys.pwriteCount with
  | none =>
    simp only [Option.getD_none, ite_self]
    constructor
    · intro h
      contradiction
    · intro h
      omega
  | some n =>
    simp only [Option.getD_some]
    split
    · constructor
      · intro h
        contradiction
      · intro h
        omega
    · simp only [Option.some.injEq]
      omega

theorem pwriteAt_bytes (sys : SysResults) (r : ChunkRequest) {disk : FileSystem Bytes} {fd : Nat}
    {path : Bytes} (opened : disk.Opened fd path) (q : Bytes) :
    (pwriteAt sys disk (some fd) r.chunkData
        (chunkOffset r.chunk_index r.st.chunk_size)).2.read q =
      if q = path then
        (disk.read path).map (overwrite (chunkOffset r.chunk_index r.st.chunk_size).toInt.toNat
          (r.chunkData.take (writableBytes sys r)))
      else disk.read q := by
  have nothing : disk.read q =
      if q = path then
        (disk.read path).map (overwrite (chunkOffset r.chunk_index r.st.chunk_size).toInt.toNat
          (r.chunkData.take 0))
      else disk.read q := by
    split
    · rename_i same
      rw [same, List.take_zero]
      cases disk.read path <;> rfl
    · rfl
  simp only [pwriteAt, writableBytes]
  cases sys.pwriteCount with
  | none => simpa only [Option.getD_none, ite_self] using nothing
  | some n =>
    simp only [Option.getD_some]
    split
    · exact nothing
    · exact modify_read _ opened

theorem error_head {what : String} {code : error_codes.Code} :
    IsFileError (mkError code what) := rfl

theorem only_error {reply : Bytes} (error : ∃ other ∈ [reply], IsFileError other) :
    IsFileError reply := by
  obtain ⟨other, mem, head⟩ := error
  rw [← List.mem_singleton.mp mem]
  exact head

theorem unchanged_refl (m : Manager) : Unchanged m m := ⟨fun _ => rfl, fun _ => rfl⟩

theorem left_unchanged {m : Manager} {disk : FileSystem Bytes} {path left : Bytes}
    (bytes : ∀ q, disk.read q = if q = path then some left else m.disk.read q) :
    Unchanged m { m with disk } ↔ m.disk.read path = some left := by
  constructor
  · intro unchanged
    rw [← unchanged.2 path, bytes, if_pos rfl]
  · intro before
    refine ⟨fun _ => rfl, ?_⟩
    intro q
    rw [bytes]
    split
    · rename_i here
      rw [here, before]
    · rfl

theorem replaced_changes {m m' : Manager} {r : StartRequest} {ex : FileState}
    (found : m.g_states.lookup r.file_id = some ex) (fresh : r.resumes ex = false)
    (table : ∀ st, m'.g_states.lookup r.file_id = some st → r.resumes st = true) :
    ¬ Unchanged m m' := by
  intro unchanged
  have resumes := table ex ((unchanged.1 r.file_id).trans found)
  rw [fresh] at resumes
  contradiction

theorem newSession_resumes (r : StartRequest) (fd : Nat) (now_seconds : UInt64) :
    r.resumes (newSession r fd now_seconds) = true := by
  simp [StartRequest.resumes, newSession]

section
variable {m : Manager} {sys : SysResults} {r : StartRequest}

theorem created_unchanged
    (fresh : ∀ ex, m.g_states.lookup r.file_id = some ex → r.resumes ex = false) :
    Unchanged m (createSession sys r (replaced m r.file_id)).1 ↔ LosesNothing sys m r
      (Untruncated sys r ∧ m.disk.read (makeTempPath r.file_id) = some []) := by
  unfold LosesNothing
  cases found : m.g_states.lookup r.file_id with
  | some ex =>
    simp only [reduceCtorEq, false_and, iff_false]
    apply replaced_changes found (fresh ex found)
    intro st here
    have gone := replaced_absent m r.file_id
    rcases createSession_cases sys r (replaced m r.file_id) with
      ⟨_, result⟩ | ⟨fd, _, _, ⟨_, result⟩ | ⟨_, result⟩⟩ <;> rw [result] at here
    · rw [gone] at here
      contradiction
    · rw [gone] at here
      contradiction
    · rw [AList.lookup_insert] at here
      exact Option.some.inj here ▸ newSession_resumes r fd sys.now_seconds
  | none =>
    have same : replaced m r.file_id = m := by simp only [replaced, found]
    rw [same]
    simp only [true_and, createSession]
    cases opened : openTemp sys m.disk (makeTempPath r.file_id) with
    | none => exact iff_of_true (unchanged_refl m) (.inl rfl)
    | some handle =>
      obtain ⟨fd, disk⟩ := handle
      obtain ⟨free, rfl⟩ := openTemp_some opened
      simp only [reduceCtorEq, false_or]
      cases truncated : truncateTo sys (m.disk.openTruncate (makeTempPath r.file_id) fd) fd
        r.file_size.toInt64 with
      | none =>
        simp only [truncateTo_none.mp truncated, true_and]
        apply left_unchanged
        intro q
        rw [close_read, open_read]
      | some disk =>
        simp only [truncated_sized truncated, false_and, iff_false]
        intro unchanged
        have here := unchanged.1 r.file_id
        rw [AList.lookup_insert, found] at here
        contradiction

theorem exhausted_unchanged
    (fresh : ∀ ex, m.g_states.lookup r.file_id = some ex → r.resumes ex = false) :
    Unchanged m (createWithoutMemory sys r (replaced m r.file_id)).1 ↔ LosesNothing sys m r
      (m.disk.read (makeTempPath r.file_id) = some (sizedBytes sys r)) := by
  unfold LosesNothing
  cases found : m.g_states.lookup r.file_id with
  | some ex =>
    simp only [reduceCtorEq, false_and, iff_false]
    apply replaced_changes found (fresh ex found)
    intro st here
    rw [createWithoutMemory_table, replaced_absent] at here
    contradiction
  | none =>
    have same : replaced m r.file_id = m := by simp only [replaced, found]
    rw [same]
    simp only [true_and, createWithoutMemory]
    cases opened : openTemp sys m.disk (makeTempPath r.file_id) with
    | none => exact iff_of_true (unchanged_refl m) (.inl rfl)
    | some handle =>
      obtain ⟨fd, disk⟩ := handle
      obtain ⟨free, rfl⟩ := openTemp_some opened
      simp only [reduceCtorEq, false_or]
      cases truncated : truncateTo sys (m.disk.openTruncate (makeTempPath r.file_id) fd) fd
        r.file_size.toInt64 with
      | none =>
        rw [sizedBytes, if_pos (truncateTo_none.mp truncated)]
        apply left_unchanged
        intro q
        rw [close_read, open_read]
      | some disk =>
        rw [sizedBytes, if_neg (truncated_sized truncated)]
        obtain ⟨nonneg, rfl⟩ := truncateTo_some truncated
        apply left_unchanged
        intro q
        have length : r.file_size.toInt64.toInt.toNat = r.file_size.toNat := by
          rw [off_t_small (off_t_nonneg nonneg), Int.toNat_natCast]
        rw [ftruncate, modify_read _ open_opened, length, open_read, open_read, if_pos rfl]
        split
        · simp [resize]
        · rfl

end

theorem accepted_whole (sys : SysResults) {m : Manager} {p : Bytes} {r : ChunkRequest}
    (sound : Sound m) (accepted : Accepted m p r) :
    (pwriteAt sys m.disk r.st.fd r.chunkData (chunkOffset r.chunk_index r.st.chunk_size)).1 =
        some r.chunkData.length ↔ r.chunkData.length ≤ writableBytes sys r := by
  obtain ⟨fd, here, _⟩ := (sound _ _ accepted.session).opened
  rw [here]
  exact pwriteAt_whole sys m.disk fd accepted.nonempty

theorem written_same {sys : SysResults} {m : Manager} {p : Bytes} {r : ChunkRequest}
    (sound : Sound m) (accepted : Accepted m p r) :
    (∀ q, (pwriteAt sys m.disk r.st.fd r.chunkData
        (chunkOffset r.chunk_index r.st.chunk_size)).2.read q = m.disk.read q) ↔
      SameBytes sys m r := by
  obtain ⟨fd, here, opened⟩ := (sound _ _ accepted.session).opened
  have bytes := pwriteAt_bytes sys r opened
  rw [here]
  unfold SameBytes
  constructor
  · intro same
    have at_temp := bytes (makeTempPath r.file_id)
    rw [if_pos rfl, same] at at_temp
    exact at_temp.symm
  · intro same q
    rw [bytes]
    split
    · rename_i at_temp
      rw [at_temp]
      exact same
    · rfl

theorem recorded_changes {sys : SysResults} {m m' : Manager} {p : Bytes} {r : ChunkRequest}
    (sound : Sound m) (accepted : Accepted m p r)
    (here : m'.g_states.lookup r.file_id = m.g_states.lookup r.file_id)
    (unmarked : bitmapGet r.st.bitmap r.chunk_index = false) :
    (recordChunk sys r m').g_states.lookup r.file_id ≠ m.g_states.lookup r.file_id := by
  intro same
  have session := accepted.session
  rw [recordChunk_lookup sys (here.trans session), session, Option.some.injEq] at same
  have bitmap : (chunkState sys r).bitmap = bitmapSet r.st.bitmap r.chunk_index := by
    simp only [chunkState, unmarked, Bool.false_eq_true, ↓reduceIte, markReceived]
  have bit := bitmapGet_set (bitmap_inside (sound _ _ session) accepted.range) r.chunk_index
  rw [← bitmap, same, unmarked] at bit
  simp at bit

theorem stored_unchanged {m : Manager} {sys : SysResults} {p : Bytes} {r : ChunkRequest}
    (sound : Sound m) (accepted : Accepted m p r)
    (error : ∃ reply ∈ (storeChunk sys r m).2, IsFileError reply) :
    Unchanged m (storeChunk sys r m).1 ↔
      SameBytes sys m r ∧
        (r.chunkData.length ≤ writableBytes sys r →
          bitmapGet r.st.bitmap r.chunk_index = true) := by
  have whole := accepted_whole sys sound accepted
  have files := @written_same sys m p r sound accepted
  have cases := storeChunk_cases sys r m
  generalize pwriteAt sys m.disk r.st.fd r.chunkData
    (chunkOffset r.chunk_index r.st.chunk_size) = w at whole files cases
  rcases cases with ⟨short, result⟩ | ⟨_, _, result⟩ | ⟨full, _, result⟩ <;> rw [result] at error ⊢
  · have cut : ¬ r.chunkData.length ≤ writableBytes sys r := fun h => short (whole.mpr h)
    simp only [cut, false_implies, and_true, Unchanged, implies_true, true_and]
    exact files
  · exact absurd (Option.some.inj (only_error error)) (by decide)
  · obtain ⟨reply, mem, head⟩ := error
    rcases List.mem_cons.mp mem with ack | later
    · rw [ack] at head
      exact absurd (Option.some.inj head) (by decide)
    · rcases finishUpload_cases sys r.file_id (chunkState sys r)
        (recordChunk sys r { m with disk := w.2 }) with
        ⟨what, _, finish⟩ | ⟨_, finish⟩ | ⟨_, _, _, finish⟩ <;> rw [finish] at later ⊢
      · simp only [whole.mp full, true_implies]
        unfold Unchanged
        rw [show (recordChunk sys r { m with disk := w.2 }).disk = w.2 from rfl, files, and_comm]
        apply and_congr_right
        intro _
        cases already : bitmapGet r.st.bitmap r.chunk_index with
        | true => simp only [recordChunk, already, ↓reduceIte, implies_true]
        | false =>
          simp only [Bool.false_eq_true, iff_false]
          intro sessions
          exact recorded_changes sound accepted rfl already (sessions r.file_id)
      · exact absurd (Option.some.inj (only_error ⟨reply, later, head⟩)) (by decide)
      · exact absurd (Option.some.inj (only_error ⟨reply, later, head⟩)) (by decide)

section
variable {m : Manager} {sys : SysResults}

theorem rejected_harmless {payload : Bytes} (rejected : Rejected m payload) :
    HarmlessMessage sys m payload := by
  obtain ⟨start, chunk⟩ := rejected_accepts_nothing rejected
  simp [HarmlessMessage, start, chunk]

theorem start_harmless {p : Bytes} {r : StartRequest} (checked : checkStart p = .ok r) :
    HarmlessMessage sys m (MSG_FILE_START :: p) ↔ Resumes m r ∨ LosesNothing sys m r
      (Untruncated sys r ∧ m.disk.read (makeTempPath r.file_id) = some []) := by
  obtain ⟨start, chunk⟩ := accepted_start m checked
  simp [HarmlessMessage, start, chunk]

theorem fresh_resumes {r : StartRequest}
    (fresh : ∀ ex, m.g_states.lookup r.file_id = some ex → r.resumes ex = false) :
    ¬ Resumes m r := by
  rintro ⟨ex, found, same⟩
  rw [fresh ex found] at same
  contradiction

theorem chunk_harmless {p : Bytes} {r : ChunkRequest} (checked : checkChunk m p = .ok r) :
    HarmlessMessage sys m (MSG_FILE_CHUNK :: p) ↔ SameBytes sys m r ∧
      (r.chunkData.length ≤ writableBytes sys r → bitmapGet r.st.bitmap r.chunk_index = true) := by
  obtain ⟨start, chunk⟩ := accepted_chunk checked
  simp [HarmlessMessage, start, chunk]

theorem message_unchanged (sound : Sound m) {payload : Bytes}
    (error : ∃ reply ∈ (handleClientMessage sys payload m).2, IsFileError reply) :
    Unchanged m (handleClientMessage sys payload m).1 ↔ HarmlessMessage sys m payload := by
  have all := handled sys payload m
  generalize handleClientMessage sys payload m = outcome at error all
  cases all with
  | refused rejected => exact iff_of_true (unchanged_refl m) (rejected_harmless rejected)
  | resumed =>
    exact absurd (Option.some.inj (only_error error)) (by decide)
  | queried =>
    exact absurd (Option.some.inj (only_error error)) (by decide)
  | created checked fresh =>
    rw [start_harmless checked, or_iff_right (fresh_resumes fresh)]
    exact created_unchanged fresh
  | stored checked =>
    rw [chunk_harmless checked]
    exact stored_unchanged sound (checkChunk_ok checked) error

/- Without memory for the reply a message is refused, or a session is looked up or begun, or the
   reply has no bitmap. -/
theorem unanswered_unchanged (sound : Sound m) {payload : Bytes}
    (error : ∃ reply ∈ (messageWithoutReply sys payload m).2, IsFileError reply) :
    Unchanged m (messageWithoutReply sys payload m).1 ↔ HarmlessMessage sys m payload := by
  have all := handled sys payload m
  have state := messageWithoutReply_state sys payload m
  generalize served : handleClientMessage sys payload m = outcome at state all
  cases all with
  | refused rejected =>
    have still : (messageWithoutReply sys payload m).1 = m := by
      rcases state with same | ⟨_, _, _, _, same⟩
      · exact same
      · exact same
    rw [still]
    exact iff_of_true (unchanged_refl m) (rejected_harmless rejected)
  | @resumed p r ex checked found same =>
    have still : (messageWithoutReply sys (MSG_FILE_START :: p) m).1 = m := by
      simp only [messageWithoutReply, ↓reduceIte, startWithoutReply, checked, found, same]
    rw [still, start_harmless checked]
    exact iff_of_true (unchanged_refl m) (.inl ⟨ex, found, same⟩)
  | @queried p r checked =>
    have other : MSG_FILE_QUERY ≠ MSG_FILE_START := by decide
    have still : (messageWithoutReply sys (MSG_FILE_QUERY :: p) m).1 = m := by
      simp only [messageWithoutReply, other, ↓reduceIte, queryWithoutReply, checked]
    obtain ⟨start, chunk⟩ := query_accepts_nothing m p
    rw [still]
    exact iff_of_true (unchanged_refl m) (by simp [HarmlessMessage, start, chunk])
  | @created p r checked fresh =>
    have begun : (messageWithoutReply sys (MSG_FILE_START :: p) m).1 =
        (createSession sys r (replaced m r.file_id)).1 := by
      simp only [messageWithoutReply, ↓reduceIte, startWithoutReply, checked, replaced]
      cases found : m.g_states.lookup r.file_id with
      | none => rfl
      | some ex =>
        simp only [fresh ex found]
        rfl
    rw [begun, start_harmless checked, or_iff_right (fresh_resumes fresh)]
    exact created_unchanged fresh
  | @stored p r checked =>
    have start : MSG_FILE_CHUNK ≠ MSG_FILE_START := by decide
    have query : MSG_FILE_CHUNK ≠ MSG_FILE_QUERY := by decide
    have same : messageWithoutReply sys (MSG_FILE_CHUNK :: p) m = storeChunk sys r m := by
      simp only [messageWithoutReply, start, query, ↓reduceIte, served]
    rw [same] at error ⊢
    rw [chunk_harmless checked]
    exact stored_unchanged sound (checkChunk_ok checked) error

theorem exhausted_start_unchanged {p : Bytes}
    (error : ∃ reply ∈ (startWithoutMemory sys p m).2, IsFileError reply) :
    Unchanged m (startWithoutMemory sys p m).1 ↔ Harmless m (.noMemory sys p) := by
  unfold Harmless
  rcases startWithoutMemory_handled sys p m with
    ⟨reply, refused, served⟩ | ⟨r, ex, checked, _, _, served⟩ | ⟨r, checked, fresh, served⟩
  · rw [served]
    refine iff_of_true (unchanged_refl m) ?_
    simp [acceptedStart, refused, Except.toOption]
  · rw [served] at error
    exact absurd (Option.some.inj (only_error error)) (by decide)
  · rw [served, exhausted_unchanged fresh]
    simp [(accepted_start m checked).1]

end

/-- What is answered by FILE_ERROR, for whatever reason, changes nothing exactly when it is
    harmless. -/
theorem file_error_exact {m : Manager} (reachable : EventReachable m) (e : Event)
    (error : ∃ reply ∈ (e.happens m).2, IsFileError reply) :
    Unchanged m (e.happens m).1 ↔ Harmless m e := by
  have sound := eventReachable_sound reachable
  cases e with
  | call c =>
    cases c with
    | message sys payload => exact message_unchanged sound error
    | cleanup order unlinkOk now_seconds ttl_seconds max_sessions =>
      obtain ⟨reply, none, _⟩ := error
      contradiction
  | noMemory sys p => exact exhausted_start_unchanged error
  | noReply sys payload => exact unanswered_unchanged sound error

/-- A session of one byte, then a FILE_START for the same id with a size that no off_t holds. -/
def oneByteSession : Manager :=
  (perform (start .empty) (.message willing (startPayload 7 1 1 1 (CRC32.checksum [1]) []))).1

def impossibleStart : Bytes := startPayload 7 0x8000000000000000 1 1 0 []

theorem oneByteSession_reachable : Reachable oneByteSession :=
  ⟨start .empty, [.message willing (startPayload 7 1 1 1 (CRC32.checksum [1]) [])],
    ⟨.empty, rfl⟩, rfl⟩

theorem oneByteSession_eventReachable : EventReachable oneByteSession :=
  ⟨start .empty, [.call (.message willing (startPayload 7 1 1 1 (CRC32.checksum [1]) []))],
    ⟨.empty, rfl⟩, rfl⟩

theorem failed_start_drops_session :
    ¬ ∀ m, Reachable m → ∀ (sys : SysResults) (payload : Bytes),
      (∃ reply ∈ (handleClientMessage sys payload m).2, IsFileError reply) →
        Unchanged m (handleClientMessage sys payload m).1 := by
  intro claimed
  have error : ∃ reply ∈ (handleClientMessage willing impossibleStart oneByteSession).2,
      IsFileError reply := by decide +kernel
  have same := (claimed _ oneByteSession_reachable willing impossibleStart error).1 7
  have before : (oneByteSession.g_states.lookup 7).isSome = true := by decide +kernel
  have after : ((handleClientMessage willing impossibleStart
      oneByteSession).1.g_states.lookup 7).isSome = false := by decide +kernel
  rw [same, before] at after
  contradiction

theorem failed_start_exact :
    Unchanged oneByteSession (handleClientMessage willing impossibleStart oneByteSession).1 ↔
      Harmless oneByteSession (.call (.message willing impossibleStart)) :=
  file_error_exact oneByteSession_eventReachable (.call (.message willing impossibleStart))
    (by decide +kernel)

end FileTransferManager
