import WebsocketServer.File.LastChunk

/- What a chunk does to bytes that were acknowledged before. The write comes ahead of the look
   into the bitmap. -/
namespace FileTransferManager
open FileSystem

def tempFile (m : Manager) (id : UInt64) : Bytes := (m.disk.read (makeTempPath id)).getD []

/-- The bytes stand in the file at the place of the chunk. -/
def Stands (m : Manager) (r : ChunkRequest) (data : Bytes) : Prop :=
  data <+: (tempFile m r.file_id).drop (chunkOffset r.chunk_index r.st.chunk_size).toInt.toNat

/-- Bitmap, counter and temporary file are as they were. -/
structure NoEffect (id : UInt64) (m m' : Manager) : Prop where
  session : (m'.g_states.lookup id).map (fun st => (st.bitmap, st.received_count)) =
    (m.g_states.lookup id).map fun st => (st.bitmap, st.received_count)
  file : m'.disk.read (makeTempPath id) = m.disk.read (makeTempPath id)

/-- The chunk, if the message gets as far as the write, brings what is there already and does not
    end its session. -/
def Idle (sys : SysResults) (m : Manager) (payload : Bytes) : Prop :=
  ∀ r ∈ acceptedChunk m payload, Stands m r r.chunkData ∧ (missing r.st ≠ ∅ ∨ Unreadable sys m r)

/-- A chunk that came before is written, as far as the kernel writes it, with what is there. -/
def Repeats (m : Manager) : Call → Prop
  | .message sys payload => ∀ r ∈ acceptedChunk m payload,
      bitmapGet r.st.bitmap r.chunk_index = true →
        Stands m r (r.chunkData.take (writableBytes sys r))
  | .cleanup .. => True

/-- The session of the id is there all along and is not started anew. -/
def Lives (id : UInt64) (m : Manager) (calls : List Call) : Prop :=
  m.g_states.lookup id ≠ none ∧ ∀ t ∈ Run.steps perform m calls,
    ¬ StartsAnew t.before id t.input ∧ t.after.g_states.lookup id ≠ none

section
variable {sys : SysResults} {m : Manager} {p : Bytes} {r : ChunkRequest} {id : UInt64} {i : UInt32}
  {status : UInt8}

theorem chunkAck_id {a b : UInt64} {i j : UInt32} {s t : UInt8}
    (same : chunkAck a i s = chunkAck b j t) : a = b := by
  simp only [chunkAck, List.cons_append, List.append_assoc, List.cons.injEq, true_and] at same
  exact (writeU64BE_injective same).1

theorem chunkAck_alone {reply : Bytes} (ack : chunkAck id i status = reply) :
    reply.head? ≠ some MSG_FILE_ERROR ∧ reply.head? ≠ some MSG_FILE_FINISH_ACK := by
  rw [← ack]
  constructor <;> exact fun head => absurd (Option.some.inj head) (by decide)

theorem acceptedChunk_some {payload : Bytes} (message : acceptedChunk m payload = some r) :
    ∃ p, payload = MSG_FILE_CHUNK :: p ∧ checkChunk m p = .ok r := by
  unfold acceptedChunk at message
  split at message
  · rename_i head
    obtain ⟨p, shape⟩ := List.head?_eq_some_iff.mp head
    rw [shape, List.tail_cons] at message
    refine ⟨p, shape, ?_⟩
    cases checked : checkChunk m p with
    | error replies =>
      rw [checked] at message
      contradiction
    | ok r' =>
      rw [checked] at message
      exact congrArg Except.ok (Option.some.inj message)
  · contradiction

/- An acknowledgement comes from a chunk that was written whole, and tells what the bitmap said. -/
theorem storeChunk_acked (acked : chunkAck id i status ∈ (storeChunk sys r m).2) :
    (pwriteAt sys m.disk r.st.fd r.chunkData (chunkOffset r.chunk_index r.st.chunk_size)).1 =
        some r.chunkData.length ∧
      id = r.file_id ∧ status = if bitmapGet r.st.bitmap r.chunk_index then 0 else 1 := by
  have error_head (what : String) : (mkError .INTERNAL_ERROR what).head? = some MSG_FILE_ERROR :=
    rfl
  rcases storeChunk_cases sys r m with
    ⟨_, result⟩ | ⟨whole, _, result⟩ | ⟨whole, _, result⟩ <;> rw [result] at acked
  · exact absurd (error_head _) (chunkAck_alone (List.mem_singleton.mp acked)).1
  · have same := List.mem_singleton.mp acked
    exact ⟨whole, chunkAck_id same, chunkAck_status same⟩
  · rcases List.mem_cons.mp acked with same | later
    · exact ⟨whole, chunkAck_id same, chunkAck_status same⟩
    · rcases finishUpload_replies later with ⟨what, error⟩ | ⟨ok, finish⟩
      · exact absurd (error_head what) (chunkAck_alone error).1
      · exact absurd (finishAck_head ⟨ok, rfl⟩) (chunkAck_alone finish).2

theorem storeChunk_disk (remains : (storeChunk sys r m).1.g_states.lookup r.file_id ≠ none) :
    (storeChunk sys r m).1.disk = (pwriteAt sys m.disk r.st.fd r.chunkData
      (chunkOffset r.chunk_index r.st.chunk_size)).2 := by
  rcases storeChunk_cases sys r m with ⟨_, result⟩ | ⟨_, _, result⟩ | ⟨_, _, result⟩ <;>
    rw [result] at remains ⊢
  · rfl
  · rcases finishUpload_cases sys r.file_id (chunkState sys r) (recordChunk sys r _) with
      ⟨what, _, ends⟩ | ⟨_, ends⟩ | ⟨_, _, _, ends⟩ <;> rw [ends] at remains ⊢
    · rfl
    · exact absurd (AList.lookup_erase _ _) remains
    · exact absurd (AList.lookup_erase _ _) remains

theorem written_file (sound : Sound m) (accepted : Accepted m p r) :
    (pwriteAt sys m.disk r.st.fd r.chunkData
        (chunkOffset r.chunk_index r.st.chunk_size)).2.read (makeTempPath r.file_id) =
      some (overwrite (chunkOffset r.chunk_index r.st.chunk_size).toInt.toNat
        (r.chunkData.take (writableBytes sys r)) (tempFile m r.file_id)) := by
  have session := sound _ _ accepted.session
  obtain ⟨fd, here, opened⟩ := session.opened
  obtain ⟨b, bytes⟩ := session_read session
  rw [here, pwriteAt_bytes sys r opened, if_pos rfl, bytes, Option.map_some, tempFile, bytes,
    Option.getD_some]

theorem temp_read (sound : Sound m) (accepted : Accepted m p r) :
    m.disk.read (makeTempPath r.file_id) = some (tempFile m r.file_id) := by
  obtain ⟨b, bytes⟩ := session_read (sound _ _ accepted.session)
  rw [tempFile, bytes, Option.getD_some]

/- A chunk that comes again has an effect on its bytes, or ends a session that was left full. -/
theorem duplicate_effect (sound : Sound m) (accepted : Accepted m p r)
    (acked : chunkAck id i 0 ∈ (storeChunk sys r m).2) :
    NoEffect id m (storeChunk sys r m).1 ↔
      Stands m r r.chunkData ∧ (missing r.st ≠ ∅ ∨ Unreadable sys m r) := by
  obtain ⟨written, rfl, status⟩ := storeChunk_acked acked
  have already : bitmapGet r.st.bitmap r.chunk_index = true := by
    by_contra unmarked
    rw [if_neg unmarked] at status
    exact absurd status (by decide)
  have whole := (accepted_whole sys sound accepted).mp written
  have full : missing r.st ⊆ {r.chunk_index.toNat} ↔ missing r.st = ∅ := by
    have count := @recorded_full sys m p r sound accepted
    rw [chunkState, if_pos already] at count
    rw [← count, missing_empty (sound _ _ accepted.session)]
  rcases stored_outcome sound accepted whole with ⟨live, found⟩ | ⟨last, readable, gone, _⟩
  · rw [full] at live
    rw [chunkState, if_pos already] at found
    have disk := storeChunk_disk (by rw [found]; exact Option.some_ne_none _)
    have after := @written_file sys m p r sound accepted
    rw [← disk, List.take_of_length_le whole] at after
    have before := temp_read sound accepted
    constructor
    · intro none
      have same := none.file
      rw [after, before, Option.some.injEq] at same
      exact ⟨overwrite_same_iff.mp same, live⟩
    · rintro ⟨stands, _⟩
      refine ⟨by rw [found, accepted.session], ?_⟩
      rw [after, before, overwrite_same_iff.mpr stands]
  · rw [full] at last
    constructor
    · intro none
      have same := none.session
      rw [gone, accepted.session] at same
      contradiction
    · rintro ⟨_, some_missing | unreadable⟩
      · exact absurd last some_missing
      · exact absurd unreadable readable

theorem zero_effect (sound : Sound m) {payload : Bytes}
    (acked : chunkAck id i 0 ∈ (handleClientMessage sys payload m).2) :
    NoEffect id m (handleClientMessage sys payload m).1 ↔ Idle sys m payload := by
  have all := handled sys payload m
  generalize handleClientMessage sys payload m = outcome at acked all
  unfold Idle
  cases all with
  | refused rejected =>
    rw [(rejected_accepts_nothing rejected).2]
    exact iff_of_true ⟨rfl, rfl⟩ (by simp)
  | resumed =>
    have same := congrArg List.head? (List.mem_singleton.mp acked)
    exact absurd (Option.some.inj same) (by decide)
  | queried =>
    have same := congrArg List.head? (List.mem_singleton.mp acked)
    exact absurd (Option.some.inj same) (by decide)
  | created =>
    rcases createSession_replies acked with ⟨what, error⟩ | ⟨bitmap, response⟩
    · exact absurd rfl (chunkAck_alone error).1
    · exact absurd (Option.some.inj (congrArg List.head? response)) (by decide)
  | @stored p r checked =>
    rw [(accepted_chunk checked).2, duplicate_effect sound (checkChunk_ok checked) acked]
    simp

theorem temp_step {call : Call} (sound : Sound m) (same : ¬ StartsAnew m id call)
    (remains : (perform m call).1.g_states.lookup id ≠ none) :
    tempFile (perform m call).1 id = tempFile m id ∨
      ∃ sys payload r, call = .message sys payload ∧ acceptedChunk m payload = some r ∧
        r.file_id = id ∧ (∃ p, Accepted m p r) ∧ tempFile (perform m call).1 id =
          overwrite (chunkOffset r.chunk_index r.st.chunk_size).toInt.toNat
            (r.chunkData.take (writableBytes sys r)) (tempFile m id) := by
  have spared {m' : Manager} (keeps : Keeps id m m') : tempFile m' id = tempFile m id := by
    rw [tempFile, tempFile, keeps.disk.bytes _ (.inl rfl)]
  cases call with
  | cleanup order unlinkOk now_seconds ttl_seconds max_sessions =>
    exact .inl (spared (cleanupSessions_keeps sound remains))
  | message sys payload =>
    simp only [perform] at remains ⊢
    by_cases own : id = readU64BE payload.tail
    · have all := handled sys payload m
      generalize handleClientMessage sys payload m = outcome at remains all
      cases all with
      | refused => exact .inl rfl
      | resumed => exact .inl rfl
      | queried => exact .inl rfl
      | @created p r checked fresh =>
        obtain rfl : id = r.file_id := own.trans (checkStart_ok checked).2.1.symm
        exact absurd ⟨p, r, rfl, checked, rfl, fresh⟩ same
      | @stored p r checked =>
        have accepted := checkChunk_ok checked
        obtain rfl : id = r.file_id := own.trans accepted.id.symm
        right
        refine ⟨sys, _, r, rfl, (accepted_chunk checked).2, rfl, ⟨p, accepted⟩, ?_⟩
        rw [tempFile, storeChunk_disk remains, written_file sound accepted, Option.getD_some]
    · exact .inl (spared ((handleClientMessage_effect sys payload sound).2 id own))

end

/- An offset that the kernel accepts did not wrap. -/
theorem chunkOffset_nonneg {i c : UInt32} (nonneg : ¬ chunkOffset i c < 0) :
    (chunkOffset i c).toInt.toNat = i.toNat * c.toNat := by
  have small : i.toNat * c.toNat < 2 ^ 63 := by
    by_contra large
    apply nonneg
    have bound : i.toNat * c.toNat < 2 ^ 64 := by
      have index := i.toNat_lt
      have size := c.toNat_lt
      calc
        _ ≤ (2 ^ 32 - 1) * (2 ^ 32 - 1) := Nat.mul_le_mul (by omega) (by omega)
        _ < 2 ^ 64 := by decide
    have wrapped : ((i.toNat * c.toNat : Nat) : Int) % (2 ^ 64 : Nat) = (i.toNat * c.toNat : Nat) :=
      Int.emod_eq_of_lt (by omega) (by omega)
    rw [Int64.lt_iff_toInt_lt, chunkOffset_bmod, Int.bmod_neg _ _ (by omega), wrapped]
    change _ < (0 : Int)
    omega
  rw [chunkOffset_toInt small, Int.toNat_natCast]

/-- The bytes of an acknowledged chunk are in the file of its session. -/
structure Acknowledged (r : ChunkRequest) (m : Manager) : Prop where
  session : ∃ st, m.g_states.lookup r.file_id = some st ∧ st.chunk_size = r.st.chunk_size ∧
    st.total_chunks = r.st.total_chunks ∧ bitmapGet st.bitmap r.chunk_index = true
  stands : Stands m r r.chunkData

structure Placed (r : ChunkRequest) : Prop where
  offset : (chunkOffset r.chunk_index r.st.chunk_size).toInt.toNat =
    r.chunk_index.toNat * r.st.chunk_size.toNat
  range : r.chunk_index < r.st.total_chunks
  size : r.chunk_index + 1 ≠ r.st.total_chunks → r.chunkData.length = r.st.chunk_size.toNat

theorem full_chunk {r : ChunkRequest} {j : Nat} (range : j < r.st.total_chunks.toNat)
    (before : r.chunk_index.toNat < j)
    (size : r.chunk_index + 1 ≠ r.st.total_chunks → r.chunkData.length = r.st.chunk_size.toNat) :
    r.chunk_index.toNat * r.st.chunk_size.toNat + r.chunkData.length ≤
      j * r.st.chunk_size.toNat := by
  have word := r.st.total_chunks.toNat_lt
  have next : (r.chunk_index + 1).toNat = r.chunk_index.toNat + 1 := by
    rw [UInt32.toNat_add]
    exact Nat.mod_eq_of_lt (by change _ + 1 < _; omega)
  have inner : r.chunk_index + 1 ≠ r.st.total_chunks := by
    intro last
    rw [← last, next] at range
    omega
  rw [size inner, ← Nat.succ_mul]
  exact Nat.mul_le_mul_right _ before

section
variable {m : Manager} {r : ChunkRequest} {call : Call}

theorem acknowledged_session (sound : Sound m) (same : ¬ StartsAnew m r.file_id call)
    (acknowledged : Acknowledged r m)
    (remains : (perform m call).1.g_states.lookup r.file_id ≠ none) :
    ∃ st, (perform m call).1.g_states.lookup r.file_id = some st ∧
      st.chunk_size = r.st.chunk_size ∧ st.total_chunks = r.st.total_chunks ∧
      bitmapGet st.bitmap r.chunk_index = true := by
  obtain ⟨st, here, chunk_size, total_chunks, marked⟩ := acknowledged.session
  obtain ⟨st', found⟩ := Option.ne_none_iff_exists'.mp remains
  refine ⟨st', found, ?_⟩
  cases perform_session sound found with
  | @stays st₁ now_seconds there =>
    obtain rfl := Option.some.inj (here.symm.trans there)
    exact ⟨chunk_size, total_chunks, marked⟩
  | created now_seconds starts => exact absurd starts same
  | @marked r₁ now_seconds there same range =>
    obtain rfl := Option.some.inj (here.symm.trans there)
    have inside := bitmap_inside (sound _ _ there) range
    refine ⟨chunk_size, total_chunks, ?_⟩
    rw [markReceived, bitmapGet_set inside, marked, Bool.or_true]

theorem chunks_apart {r₁ : ChunkRequest} {p : Bytes} {sys : SysResults} (placed : Placed r)
    (accepted : Accepted m p r₁) (chunk_size : r₁.st.chunk_size = r.st.chunk_size)
    (total_chunks : r₁.st.total_chunks = r.st.total_chunks) (other : r₁.chunk_index ≠ r.chunk_index)
    {b : Bytes}
    (stands : r.chunkData <+: b.drop (r.chunk_index.toNat * r.st.chunk_size.toNat)) :
    r.chunkData <+: (overwrite (chunkOffset r₁.chunk_index r₁.st.chunk_size).toInt.toNat
      (r₁.chunkData.take (writableBytes sys r₁)) b).drop
        (r.chunk_index.toNat * r.st.chunk_size.toNat) := by
  by_cases negative : chunkOffset r₁.chunk_index r₁.st.chunk_size < 0
  · have nothing : writableBytes sys r₁ = 0 := by rw [writableBytes, if_pos negative]
    rw [nothing, List.take_zero]
    exact stands
  · apply overwrite_apart _ stands
    have cut : (r₁.chunkData.take (writableBytes sys r₁)).length ≤ r₁.chunkData.length :=
      List.length_take_le' _ _
    have range : r.chunk_index.toNat < r.st.total_chunks.toNat := placed.range
    have range₁ : r₁.chunk_index.toNat < r₁.st.total_chunks.toNat := accepted.range
    rw [chunkOffset_nonneg negative]
    rcases Nat.lt_or_gt_of_ne fun same => other (UInt32.toNat_inj.mp same) with before | behind
    · left
      have full := full_chunk (by rw [total_chunks]; exact range) before accepted.size
      rw [chunk_size] at full ⊢
      omega
    · right
      have full := full_chunk (by rw [← total_chunks]; exact range₁) behind placed.size
      rw [chunk_size]
      exact full

theorem acknowledged_step (sound : Sound m) (placed : Placed r) (acknowledged : Acknowledged r m)
    (same : ¬ StartsAnew m r.file_id call)
    (remains : (perform m call).1.g_states.lookup r.file_id ≠ none) (repeats : Repeats m call) :
    Acknowledged r (perform m call).1 := by
  refine ⟨acknowledged_session sound same acknowledged remains, ?_⟩
  obtain ⟨st, here, chunk_size, total_chunks, marked⟩ := acknowledged.session
  have stands := acknowledged.stands
  unfold Stands at stands ⊢
  rcases temp_step sound same remains with
    kept | ⟨sys, payload, r₁, rfl, message, own, ⟨p, accepted⟩, written⟩
  · rw [kept]
    exact stands
  · obtain rfl : st = r₁.st := by
      have there := accepted.session
      rw [own, here] at there
      exact Option.some.inj there
    rw [written]
    by_cases index : r₁.chunk_index = r.chunk_index
    · have again := repeats r₁ message (by rw [index]; exact marked)
      unfold Stands at again
      rw [own] at again
      rw [overwrite_same_iff.mpr again]
      exact stands
    · rw [placed.offset] at stands ⊢
      exact chunks_apart placed accepted chunk_size total_chunks index stands

theorem acknowledged_begins {sys : SysResults} {p : Bytes} (sound : Sound m)
    (accepted : Accepted m p r)
    (acked : chunkAck r.file_id r.chunk_index 1 ∈ (storeChunk sys r m).2)
    (remains : (storeChunk sys r m).1.g_states.lookup r.file_id ≠ none) :
    Placed r ∧ Acknowledged r (storeChunk sys r m).1 := by
  obtain ⟨written, _, status⟩ := storeChunk_acked acked
  have session := sound _ _ accepted.session
  have whole := (accepted_whole sys sound accepted).mp written
  have nonneg : ¬ chunkOffset r.chunk_index r.st.chunk_size < 0 := by
    intro negative
    rw [writableBytes, if_pos negative] at whole
    exact accepted.nonempty (List.eq_nil_of_length_eq_zero (by omega))
  have unmarked : ¬ bitmapGet r.st.bitmap r.chunk_index = true := by
    intro marked
    rw [if_pos marked] at status
    exact absurd status (by decide)
  refine ⟨⟨chunkOffset_nonneg nonneg, accepted.range, accepted.size⟩, ?_, ?_⟩
  · rcases stored_outcome sound accepted whole with ⟨_, found⟩ | ⟨_, _, gone, _⟩
    · refine ⟨chunkState sys r, found, ?_⟩
      rw [chunkState, if_neg unmarked]
      refine ⟨rfl, rfl, ?_⟩
      rw [markReceived, bitmapGet_set (bitmap_inside session accepted.range)]
      simp
    · exact absurd gone remains
  · unfold Stands
    rw [tempFile, storeChunk_disk remains, written_file sound accepted, Option.getD_some,
      List.take_of_length_le whole]
    exact overwrite_stands _ _ _

theorem acknowledged_run {calls : List Call} (sound : Sound m) (placed : Placed r)
    (acknowledged : Acknowledged r m) (lives : Lives r.file_id m calls)
    (repeats : ∀ t ∈ Run.steps perform m calls, Repeats t.before t.input) :
    Acknowledged r (Run.final perform m calls) := by
  induction calls generalizing m with
  | nil => exact acknowledged
  | cons call calls ih =>
    obtain ⟨_, all⟩ := lives
    simp only [Run.steps, List.forall_mem_cons] at all repeats
    obtain ⟨⟨same, remains⟩, later⟩ := all
    exact ih (perform_sound call sound)
      (acknowledged_step sound placed acknowledged same remains repeats.1) ⟨remains, later⟩
        repeats.2

end

/-- A status 0 goes with no effect exactly when the chunk is idle; and bytes acknowledged with
    status 1 stay while the session lives, if no chunk that comes again brings other bytes. -/
theorem zero_status_exact {m : Manager} (reachable : Reachable m) (sys : SysResults)
    (payload : Bytes) :
    (∀ (id : UInt64) (i : UInt32), chunkAck id i 0 ∈ (handleClientMessage sys payload m).2 →
      (NoEffect id m (handleClientMessage sys payload m).1 ↔ Idle sys m payload)) ∧
    ∀ r : ChunkRequest, acceptedChunk m payload = some r →
      chunkAck r.file_id r.chunk_index 1 ∈ (handleClientMessage sys payload m).2 →
      ∀ calls, Lives r.file_id (handleClientMessage sys payload m).1 calls →
        (∀ t ∈ Run.steps perform (handleClientMessage sys payload m).1 calls,
          Repeats t.before t.input) →
        Stands (Run.final perform (handleClientMessage sys payload m).1 calls) r r.chunkData := by
  have sound := reachable_sound reachable
  constructor
  · intro id i acked
    exact zero_effect sound acked
  · intro r message acked calls lives repeats
    obtain ⟨p, rfl, checked⟩ := acceptedChunk_some message
    have later := perform_sound (.message sys (MSG_FILE_CHUNK :: p)) sound
    simp only [perform] at later
    rw [chunk_run sys checked] at acked lives repeats later ⊢
    obtain ⟨placed, acknowledged⟩ :=
      acknowledged_begins sound (checkChunk_ok checked) acked lives.1
    exact (acknowledged_run later placed acknowledged lives repeats).stands

def twoAnnounced : Manager :=
  Run.final perform (start .empty)
    [.message willing (startPayload 7 2 1 2 (CRC32.checksum [1, 2]) [])]

def firstOfTwo : Manager :=
  (perform twoAnnounced (.message willing (chunkPayload 7 0 [1]))).1

theorem twoAnnounced_reachable : Reachable twoAnnounced := ⟨start .empty, _, ⟨.empty, rfl⟩, rfl⟩

theorem firstOfTwo_reachable : Reachable firstOfTwo := Run.Reachable.next twoAnnounced_reachable _

/- The first chunk twice with the same byte. -/
theorem same_byte_again :
    NoEffect 7 firstOfTwo (handleClientMessage willing (chunkPayload 7 0 [1]) firstOfTwo).1 ∧
      ∀ r ∈ acceptedChunk twoAnnounced (chunkPayload 7 0 [1]),
        Stands (perform firstOfTwo (.message willing (chunkPayload 7 0 [1]))).1 r [1] := by
  have again : ∀ r ∈ acceptedChunk firstOfTwo (chunkPayload 7 0 [1]),
      r.chunkData <+: (tempFile firstOfTwo r.file_id).drop
        (chunkOffset r.chunk_index r.st.chunk_size).toInt.toNat ∧ missing r.st ≠ ∅ := by
    decide +kernel
  have first : ∀ r ∈ acceptedChunk twoAnnounced (chunkPayload 7 0 [1]),
      r.file_id = 7 ∧ r.chunk_index = 0 ∧ r.chunkData = [1] := by
    decide +kernel
  constructor
  · refine ((zero_status_exact firstOfTwo_reachable willing (chunkPayload 7 0 [1])).1 7 0 ?_).mpr ?_
    · decide +kernel
    · intro r accepted
      exact ⟨(again r accepted).1, .inl (again r accepted).2⟩
  · intro r accepted
    obtain ⟨id, index, data⟩ := first r accepted
    have stands := (zero_status_exact twoAnnounced_reachable willing (chunkPayload 7 0 [1])).2 r
      accepted (by rw [id, index]; decide +kernel)
      [.message willing (chunkPayload 7 0 [1])]
    rw [data, id] at stands
    apply stands
    · refine ⟨by decide +kernel, ?_⟩
      simp only [Run.steps, List.forall_mem_singleton]
      exact ⟨startsAnew_type (by decide), by decide +kernel⟩
    · simp only [Run.steps, List.forall_mem_singleton]
      intro r' accepted' _
      exact (List.take_prefix _ _).trans (again r' accepted').1

/- The same chunk again, with another byte. -/
theorem duplicate_overwrites :
    ¬ ∀ m, Reachable m → ∀ (sys : SysResults) (payload : Bytes) (id : UInt64) (i : UInt32),
      chunkAck id i 0 ∈ (handleClientMessage sys payload m).2 →
        NoEffect id m (handleClientMessage sys payload m).1 := by
  intro claimed
  have acked :
      chunkAck 7 0 0 ∈ (handleClientMessage willing (chunkPayload 7 0 [2]) firstOfTwo).2 := by
    decide +kernel
  have file :=
    (claimed firstOfTwo firstOfTwo_reachable willing (chunkPayload 7 0 [2]) 7 0 acked).file
  exact absurd file (by decide +kernel)

end FileTransferManager
