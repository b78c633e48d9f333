import WebsocketServer.File.Rejection

/- What a call can make of the session of one id, and the representation of a session that
   follows from it. -/
namespace FileTransferManager

/-- The call is a FILE_CHUNK for this chunk that passes every check and is written whole. -/
def StoresChunk (m : Manager) (id : UInt64) (i : UInt32) : Call → Prop
  | .message sys payload => ∃ p r, payload = MSG_FILE_CHUNK :: p ∧ checkChunk m p = .ok r ∧
      r.file_id = id ∧ r.chunk_index = i ∧
      (pwriteAt sys m.disk r.st.fd r.chunkData (chunkOffset r.chunk_index r.st.chunk_size)).1 =
        some r.chunkData.length
  | .cleanup _ _ _ _ _ => False

/-- The call is a FILE_START for this id that does not resume a session. -/
def StartsAnew (m : Manager) (id : UInt64) : Call → Prop
  | .message _ payload => ∃ p r, payload = MSG_FILE_START :: p ∧ checkStart p = .ok r ∧
      r.file_id = id ∧ ∀ ex, m.g_states.lookup id = some ex → r.resumes ex = false
  | .cleanup _ _ _ _ _ => False

inductive SessionMove (m : Manager) (call : Call) (id : UInt64) : FileState → Prop where
  | stays {st : FileState} (now_seconds : UInt64) (found : m.g_states.lookup id = some st)
      (same : ¬ StartsAnew m id call)
      (settled : ∀ i, StoresChunk m id i call → bitmapGet st.bitmap i = true) :
      SessionMove m call id { st with last_update_ts := now_seconds }
  | created {r : StartRequest} {fd : Nat} (now_seconds : UInt64) (starts : StartsAnew m id call)
      (own : r.file_id = id) : SessionMove m call id (newSession r fd now_seconds)
  | marked {r : ChunkRequest} (now_seconds : UInt64) (found : m.g_states.lookup id = some r.st)
      (same : ¬ StartsAnew m id call) (range : r.chunk_index < r.st.total_chunks)
      (unmarked : bitmapGet r.st.bitmap r.chunk_index = false)
      (stored : ∀ i, StoresChunk m id i call ↔ i = r.chunk_index) :
      SessionMove m call id (markReceived r.st r.chunk_index now_seconds)

section
variable {sys : SysResults} {m : Manager} {payload p : Bytes} {id : UInt64} {i : UInt32}
  {st : FileState} {call : Call} {msgType : UInt8}

theorem stores_own (stores : StoresChunk m id i (.message sys payload)) :
    id = readU64BE payload.tail := by
  obtain ⟨p, r, rfl, checked, rfl, _⟩ := stores
  exact (checkChunk_ok checked).id

theorem stores_type (other : msgType ≠ MSG_FILE_CHUNK) :
    ¬ StoresChunk m id i (.message sys (msgType :: p)) := by
  rintro ⟨_, _, same, _⟩
  exact other (List.cons.inj same).1

theorem startsAnew_own (starts : StartsAnew m id (.message sys payload)) :
    id = readU64BE payload.tail := by
  obtain ⟨p, r, rfl, checked, rfl, _⟩ := starts
  exact (checkStart_ok checked).2.1

theorem startsAnew_type (other : msgType ≠ MSG_FILE_START) :
    ¬ StartsAnew m id (.message sys (msgType :: p)) := by
  rintro ⟨_, _, same, _⟩
  exact other (List.cons.inj same).1

theorem startsAnew_stores {other : UInt64} (starts : StartsAnew m id call) :
    ¬ StoresChunk m other i call := by
  cases call with
  | message sys payload =>
    obtain ⟨p, r, rfl, _⟩ := starts
    exact stores_type (by decide)
  | cleanup => exact fun stores => stores

theorem rejected_stores (rejected : Rejected m payload) :
    ¬ StoresChunk m id i (.message sys payload) := by
  rintro ⟨p, r, rfl, checked, _⟩
  obtain ⟨replies, refused⟩ := rejected
  rw [checked] at refused
  contradiction

theorem rejected_starts (rejected : Rejected m payload) :
    ¬ StartsAnew m id (.message sys payload) := by
  rintro ⟨p, r, rfl, checked, _⟩
  obtain ⟨reply, refused⟩ := rejected
  rw [checked] at refused
  contradiction

theorem SessionMove.kept (found : m.g_states.lookup id = some st) (same : ¬ StartsAnew m id call)
    (settled : ∀ i, StoresChunk m id i call → bitmapGet st.bitmap i = true) :
    SessionMove m call id st :=
  .stays st.last_update_ts found same settled

theorem foreign_session (sound : Sound m) (other : id ≠ readU64BE payload.tail)
    (found : (handleClientMessage sys payload m).1.g_states.lookup id = some st) :
    SessionMove m (.message sys payload) id st := by
  have keeps := (handleClientMessage_effect sys payload sound).2 id other
  rw [keeps.session] at found
  apply SessionMove.kept found
  · exact fun starts => other (startsAnew_own starts)
  · exact fun i stores => absurd (stores_own stores) other

theorem touched_session {ex : FileState} {now_seconds : UInt64}
    (here : m.g_states.lookup id = some ex)
    (found : (touch m id ex now_seconds).g_states.lookup id = some st)
    (same : ¬ StartsAnew m id call) (silent : ∀ i, ¬ StoresChunk m id i call) :
    SessionMove m call id st := by
  simp only [touch, AList.lookup_insert, Option.some.injEq] at found
  rw [← found]
  exact .stays now_seconds here same fun i stores => absurd stores (silent i)

theorem created_session {r : StartRequest} (starts : StartsAnew m r.file_id call)
    (found : (createSession sys r (replaced m r.file_id)).1.g_states.lookup r.file_id = some st) :
    SessionMove m call r.file_id st := by
  have absent := replaced_absent m r.file_id
  rcases createSession_cases sys r (replaced m r.file_id) with
    ⟨_, result⟩ | ⟨fd, _, _, ⟨_, result⟩ | ⟨_, result⟩⟩
  · rw [result, absent] at found
    contradiction
  · rw [result] at found
    simp only [absent] at found
    contradiction
  · rw [result] at found
    simp only [AList.lookup_insert, Option.some.injEq] at found
    rw [← found]
    exact .created sys.now_seconds starts rfl

theorem stores_request {r : ChunkRequest} (checked : checkChunk m p = .ok r) :
    StoresChunk m r.file_id i (.message sys (MSG_FILE_CHUNK :: p)) ↔
      i = r.chunk_index ∧ (pwriteAt sys m.disk r.st.fd r.chunkData
        (chunkOffset r.chunk_index r.st.chunk_size)).1 = some r.chunkData.length := by
  constructor
  · rintro ⟨p', r', same, checked', _, rfl, whole⟩
    obtain rfl := (List.cons.inj same).2
    rw [checked] at checked'
    obtain rfl := Except.ok.inj checked'
    exact ⟨rfl, whole⟩
  · rintro ⟨rfl, whole⟩
    exact ⟨p, r, rfl, checked, rfl, rfl, whole⟩

theorem recorded_session {r : ChunkRequest} (accepted : Accepted m p r)
    (same : ¬ StartsAnew m r.file_id call)
    (stored : ∀ i, StoresChunk m r.file_id i call ↔ i = r.chunk_index) :
    SessionMove m call r.file_id (chunkState sys r) := by
  unfold chunkState
  by_cases already : bitmapGet r.st.bitmap r.chunk_index = true
  · rw [if_pos already]
    apply SessionMove.kept accepted.session same
    intro i stores
    rw [(stored i).mp stores]
    exact already
  · rw [if_neg already]
    have new : bitmapGet r.st.bitmap r.chunk_index = false := by simpa using already
    exact .marked sys.now_seconds accepted.session same accepted.range new stored

theorem stored_session {r : ChunkRequest} (checked : checkChunk m p = .ok r)
    (found : (storeChunk sys r m).1.g_states.lookup r.file_id = some st) :
    SessionMove m (.message sys (MSG_FILE_CHUNK :: p)) r.file_id st := by
  have accepted := checkChunk_ok checked
  have same : ¬ StartsAnew m r.file_id (.message sys (MSG_FILE_CHUNK :: p)) :=
    startsAnew_type (by decide)
  have held : ({ m with disk := (pwriteAt sys m.disk r.st.fd r.chunkData
      (chunkOffset r.chunk_index r.st.chunk_size)).2 } : Manager).g_states.lookup r.file_id =
      some r.st := accepted.session
  have recorded := recordChunk_lookup sys held
  rcases storeChunk_cases sys r m with
    ⟨partly, result⟩ | ⟨whole, _, result⟩ | ⟨whole, _, result⟩
  · rw [result] at found
    have kept : m.g_states.lookup r.file_id = some st := found
    apply SessionMove.kept kept same
    intro i stores
    exact absurd ((stores_request checked).mp stores).2 partly
  · rw [result, recorded] at found
    obtain rfl := Option.some.inj found
    exact recorded_session accepted same fun i =>
      (stores_request checked).trans (and_iff_left whole)
  · rw [result] at found
    rcases finishUpload_cases sys r.file_id (chunkState sys r) (recordChunk sys r _) with
      ⟨what, _, ends⟩ | ⟨_, ends⟩ | ⟨_, _, _, ends⟩
    · rw [ends, recorded] at found
      obtain rfl := Option.some.inj found
      exact recorded_session accepted same fun i =>
        (stores_request checked).trans (and_iff_left whole)
    · rw [ends] at found
      simp only [AList.lookup_erase] at found
      contradiction
    · rw [ends] at found
      simp only [AList.lookup_erase] at found
      contradiction

theorem message_session (sound : Sound m)
    (found : (handleClientMessage sys payload m).1.g_states.lookup id = some st) :
    SessionMove m (.message sys payload) id st := by
  by_cases own : id = readU64BE payload.tail
  · have all := handled sys payload m
    generalize handleClientMessage sys payload m = outcome at found all
    cases all with
    | refused rejected =>
      apply SessionMove.kept found (rejected_starts rejected)
      exact fun i stores => absurd stores (rejected_stores rejected)
    | @resumed p r ex checked here resumes =>
      obtain rfl : id = r.file_id := own.trans (checkStart_ok checked).2.1.symm
      apply touched_session here found
      · rintro ⟨p', r', same, checked', _, fresh⟩
        obtain rfl := (List.cons.inj same).2
        rw [checked] at checked'
        obtain rfl := Except.ok.inj checked'
        rw [fresh ex here] at resumes
        contradiction
      · exact fun i => stores_type (by decide)
    | @created p r checked fresh =>
      obtain rfl : id = r.file_id := own.trans (checkStart_ok checked).2.1.symm
      exact created_session ⟨p, r, rfl, checked, rfl, fresh⟩ found
    | @queried p r checked =>
      obtain rfl : id = r.file_id := own.trans (checkQuery_ok checked).2.1.symm
      apply touched_session (checkQuery_ok checked).2.2 found (startsAnew_type (by decide))
      exact fun i => stores_type (by decide)
    | @stored p r checked =>
      obtain rfl : id = r.file_id := own.trans (checkChunk_ok checked).id.symm
      exact stored_session checked found
  · exact foreign_session sound own found

theorem perform_session (sound : Sound m)
    (found : (perform m call).1.g_states.lookup id = some st) : SessionMove m call id st := by
  cases call with
  | message sys payload => exact message_session sound found
  | cleanup order unlinkOk now_seconds ttl_seconds max_sessions =>
    have remains : (cleanupSessions order unlinkOk now_seconds ttl_seconds max_sessions
        m).g_states.lookup id ≠ none := by
      intro gone
      simp only [perform, gone] at found
      contradiction
    have keeps := cleanupSessions_keeps sound remains
    simp only [perform, keeps.session] at found
    exact SessionMove.kept found (by simp [StartsAnew]) (by simp [StoresChunk])

end

/-- All marked bits of a bitmap, those beyond the last chunk included. -/
def setBits (bitmap : Bytes) : Finset Nat :=
  (Finset.range (8 * bitmap.length)).filter fun i => bitAt bitmap i = true

/-- No bit beyond the last chunk is marked. -/
def Padded (st : FileState) : Prop := ∀ i, st.total_chunks.toNat ≤ i → bitAt st.bitmap i = false

theorem markReceived_padded {st : FileState} {i : UInt32} (padded : Padded st)
    (range : i < st.total_chunks) (inside : i.toNat / 8 < st.bitmap.length)
    (now_seconds : UInt64) : Padded (markReceived st i now_seconds) := by
  intro j beyond
  have limit : i.toNat < st.total_chunks.toNat := range
  have outside : st.total_chunks.toNat ≤ j := beyond
  have other : i.toNat ≠ j := by omega
  simp only [markReceived, bitAt_set inside, padded j outside, other, decide_false,
    Bool.or_self]

def AllPadded (m : Manager) : Prop := ∀ id st, m.g_states.lookup id = some st → Padded st

theorem perform_padded {m : Manager} (sound : Sound m) (padded : AllPadded m) (call : Call) :
    AllPadded (perform m call).1 := by
  intro id st found
  cases perform_session sound found with
  | stays now_seconds here =>
    have before := padded id _ here
    exact before
  | created => exact fun i _ => bitAt_fresh _ i
  | marked now_seconds here _ range =>
    exact markReceived_padded (padded id _ here) range (bitmap_inside (sound id _ here) range) _

theorem reachable_padded {m : Manager} (reachable : Reachable m) : AllPadded m :=
  reachable_keeps (fun disk => start_empty disk)
    (fun _ call sound padded => perform_padded sound padded call) reachable

theorem setBits_received {st : FileState} (padded : Padded st)
    (size : st.bitmap.length = (st.total_chunks.toNat + 7) / 8) :
    setBits st.bitmap = received st.bitmap st.total_chunks := by
  ext i
  have word := st.total_chunks.toNat_lt
  rw [mem_received, bitmapGet_eq, UInt32.toNat_ofNat']
  simp only [setBits, Finset.mem_filter, Finset.mem_range]
  constructor
  · rintro ⟨_, bit⟩
    have below : i < st.total_chunks.toNat := by
      by_contra beyond
      rw [padded i (by omega)] at bit
      contradiction
    rw [Nat.mod_eq_of_lt (by omega)]
    exact ⟨below, bit⟩
  · rintro ⟨below, bit⟩
    rw [Nat.mod_eq_of_lt (by omega)] at bit
    exact ⟨by omega, bit⟩

structure Represented (disk : FileSystem Bytes) (id : UInt64) (st : FileState) : Prop where
  own : st.file_id = id
  chunk_size : 0 < st.chunk_size
  total_chunks : 0 < st.total_chunks
  bitmap : st.bitmap.length = (st.total_chunks.toNat + 7) / 8
  padding : ∀ i, st.total_chunks.toNat ≤ i → bitAt st.bitmap i = false
  count : st.received_count.toNat = (setBits st.bitmap).card
  bounded : st.received_count ≤ st.total_chunks
  opened : ∃ fd, st.fd = some fd ∧ (disk.fds fd).isSome

theorem session_represented {disk : FileSystem Bytes} {id : UInt64} {st : FileState}
    (session : Session disk id st) (padded : Padded st) : Represented disk id st := by
  have most := received_card_le st.bitmap st.total_chunks
  rw [← session.count] at most
  obtain ⟨fd, here, inode, used, _⟩ := session.opened
  exact {
    own := session.own
    chunk_size := UInt32.pos_iff_ne_zero.mpr session.chunk_size
    total_chunks := UInt32.pos_iff_ne_zero.mpr session.total_chunks
    bitmap := session.bitmap
    padding := padded
    count := by rw [setBits_received padded session.bitmap, session.count]
    bounded := UInt32.le_iff_toNat_le.mpr most
    opened := ⟨fd, here, by rw [used]; rfl⟩ }

/- An accepted chunk that is not marked leaves room for one more. -/
theorem counted_once {disk : FileSystem Bytes} {id : UInt64} {r : ChunkRequest}
    (session : Session disk id r.st) (range : r.chunk_index < r.st.total_chunks)
    (sys : SysResults) :
    (chunkState sys r).received_count.toNat =
      r.st.received_count.toNat + if bitmapGet r.st.bitmap r.chunk_index then 0 else 1 := by
  have after := (chunkState_session session range sys).count
  unfold chunkState at after ⊢
  split
  · rfl
  · rename_i unmarked
    have new : bitmapGet r.st.bitmap r.chunk_index = false := by simpa using unmarked
    rw [if_neg unmarked] at after
    have grown := received_set range (bitmap_inside session range)
    rw [after, session.count]
    simp only [markReceived, grown]
    exact Finset.card_insert_of_notMem (not_received new)

/-- Every session of every state that calls can reach is well represented, a chunk that passes
    the checks finds its byte of the bitmap, and it is counted unless it is already marked. -/
theorem sessions_represented (disk : FileSystem Bytes) (calls : List Call) :
    (∀ id st, (Run.final perform (start disk) calls).g_states.lookup id = some st →
      Represented (Run.final perform (start disk) calls).disk id st) ∧
    ∀ (sys : SysResults) (p : Bytes) (r : ChunkRequest),
      checkChunk (Run.final perform (start disk) calls) p = .ok r →
      r.chunk_index.toNat / 8 < r.st.bitmap.length ∧
      (chunkState sys r).received_count.toNat =
        r.st.received_count.toNat + if bitmapGet r.st.bitmap r.chunk_index then 0 else 1 := by
  have reachable : Reachable (Run.final perform (start disk) calls) :=
    ⟨start disk, calls, ⟨disk, rfl⟩, rfl⟩
  have sound := reachable_sound reachable
  constructor
  · intro id st found
    exact session_represented (sound id st found) (reachable_padded reachable id st found)
  · intro sys p r checked
    have accepted := checkChunk_ok checked
    have session := sound _ _ accepted.session
    exact ⟨bitmap_inside session accepted.range, counted_once session accepted.range sys⟩

end FileTransferManager
