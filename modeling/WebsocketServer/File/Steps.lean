import WebsocketServer.File.Sessions

/- One lemma for each function of the upload server: it keeps the session invariant and its
   effect is confined to the id it is about. -/
namespace FileTransferManager
open FileSystem

def Effect (id : UInt64) (m m' : Manager) : Prop := Sound m' ∧ Local id m m'

theorem effect_refl {m : Manager} (id : UInt64) (sound : Sound m) : Effect id m m :=
  ⟨sound, local_refl id m⟩

theorem effect_trans {id : UInt64} {a b c : Manager} (first : Effect id a b)
    (second : Effect id b c) : Effect id a c :=
  ⟨second.1, local_trans first.2 second.2⟩

theorem openTemp_some {sys : SysResults} {disk disk' : FileSystem Bytes} {path : Bytes} {fd : Nat}
    (opened : openTemp sys disk path = some (fd, disk')) :
    disk.fds fd = none ∧ disk' = disk.openTruncate path fd := by
  unfold openTemp at opened
  split at opened
  · contradiction
  · split at opened
    · contradiction
    · rename_i free
      simp only [Option.some.injEq, Prod.mk.injEq] at opened
      obtain ⟨rfl, rfl⟩ := opened
      exact ⟨by simpa using free, rfl⟩

theorem truncateTo_some {sys : SysResults} {disk disk' : FileSystem Bytes} {fd : Nat}
    {length : Int64} (done : truncateTo sys disk fd length = some disk') :
    0 ≤ length.toInt ∧ disk' = disk.ftruncate fd length.toInt.toNat := by
  unfold truncateTo at done
  split at done
  · contradiction
  · rename_i passed
    simp only [not_or, Int64.not_lt, Int64.le_iff_toInt_le] at passed
    injection done with done
    exact ⟨passed.2, done.symm⟩

theorem pwriteAt_modify (sys : SysResults) (disk : FileSystem Bytes) (fd : Nat) (data : Bytes)
    (offset : Int64) :
    ∃ f, (pwriteAt sys disk (some fd) data offset).2 = disk.modify fd f := by
  have same : disk = disk.modify fd id := by
    unfold FileSystem.modify
    split
    · rfl
    · simp
  simp only [pwriteAt]
  cases sys.pwriteCount with
  | none => exact ⟨id, same⟩
  | some n =>
    simp only
    split
    · exact ⟨id, same⟩
    · exact ⟨_, rfl⟩

theorem touch_effect {m : Manager} {id : UInt64} {st : FileState} (sound : Sound m)
    (found : m.g_states.lookup id = some st) (now_seconds : UInt64) :
    Effect id m (touch m id st now_seconds) := by
  have effect : Local id m (touch m id st now_seconds) := local_insert (confined_refl id m.disk)
  refine ⟨sound_local sound effect ?_, effect⟩
  intro st' found'
  simp only [touch, AList.lookup_insert, Option.some.injEq] at found'
  subst found'
  have session := sound id st found
  exact ⟨session.own, session.path, session.opened, session.chunk_size, session.total_chunks,
    session.bitmap, session.count⟩

theorem erase_effect {m : Manager} {id : UInt64} {disk : FileSystem Bytes} (sound : Sound m)
    (confined : Confined id m.disk disk) : Effect id m ⟨m.g_states.erase id, disk⟩ := by
  have effect : Local id m ⟨m.g_states.erase id, disk⟩ := local_erase confined
  refine ⟨sound_local sound effect ?_, effect⟩
  intro st found
  simp only [AList.lookup_erase] at found
  contradiction

theorem disk_effect {m : Manager} {id : UInt64} {disk : FileSystem Bytes} (sound : Sound m)
    (confined : Confined id m.disk disk)
    (here : ∀ st, m.g_states.lookup id = some st → Session disk id st) :
    Effect id m { m with disk } := by
  have effect : Local id m { m with disk } := fun other ne => ⟨rfl, confined other ne⟩
  exact ⟨sound_local sound effect here, effect⟩

theorem dropSession_effect {m : Manager} {id : UInt64} {st : FileState} (sound : Sound m)
    (found : m.g_states.lookup id = some st) : Effect id m (dropSession m id st) :=
  erase_effect sound (closeFd_confined (sound id st found).opened)

theorem newSession_session {disk : FileSystem Bytes} {r : StartRequest} {fd : Nat}
    (chunk_size : r.chunk_size ≠ 0) (total_chunks : r.total_chunks ≠ 0)
    (opened : disk.Opened fd (makeTempPath r.file_id)) (now_seconds : UInt64) :
    Session disk r.file_id (newSession r fd now_seconds) where
  own := rfl
  path := rfl
  opened := ⟨fd, rfl, opened⟩
  chunk_size := chunk_size
  total_chunks := total_chunks
  bitmap := List.length_replicate
  count := by
    simp only [newSession, received_fresh, Finset.card_empty]
    rfl

theorem createSession_effect {m : Manager} {r : StartRequest} (sys : SysResults) (sound : Sound m)
    (absent : m.g_states.lookup r.file_id = none) (chunk_size : r.chunk_size ≠ 0)
    (total_chunks : r.total_chunks ≠ 0) : Effect r.file_id m (createSession sys r m).1 := by
  unfold createSession
  split
  · exact effect_refl _ sound
  · rename_i fd disk opened
    obtain ⟨free, rfl⟩ := openTemp_some opened
    have fresh : (m.disk.openTruncate (makeTempPath r.file_id) fd).Opened fd
      (makeTempPath r.file_id) := open_opened
    split
    · refine disk_effect sound (confined_trans (open_confined free) (close_confined fresh)) ?_
      intro st found
      rw [absent] at found
      contradiction
    · rename_i disk done
      obtain ⟨_, rfl⟩ := truncateTo_some done
      have confined := confined_trans (open_confined free) (modify_confined fresh
        (resize r.file_size.toInt64.toInt.toNat))
      refine ⟨sound_local sound (local_insert confined) ?_, local_insert confined⟩
      intro st found
      simp only [AList.lookup_insert, Option.some.injEq] at found
      subst found
      exact newSession_session chunk_size total_chunks (modify_opened _ |>.mpr fresh) _

theorem checkStart_ok {p : Bytes} {r : StartRequest} (checked : checkStart p = .ok r) :
    8 ≤ p.length ∧ r.file_id = readU64BE p ∧ r.chunk_size ≠ 0 ∧ r.total_chunks ≠ 0 := by
  unfold checkStart at checked
  split at checked
  · contradiction
  · split at checked
    · contradiction
    · simp only at checked
      split at checked
      · contradiction
      · rename_i long _ _ valid
        simp only [not_or] at valid
        injection checked with checked
        subst checked
        exact ⟨by omega, rfl, valid.2, valid.1⟩

theorem handleFileStart_effect {m : Manager} (sys : SysResults) (p : Bytes) (sound : Sound m) :
    Effect (readU64BE p) m (handleFileStart sys p m).1 := by
  unfold handleFileStart
  split
  · exact effect_refl _ sound
  · rename_i r checked
    obtain ⟨_, id, chunk_size, total_chunks⟩ := checkStart_ok checked
    rw [← id]
    split
    · rename_i absent
      exact createSession_effect sys sound absent chunk_size total_chunks
    · rename_i ex found
      split
      · exact touch_effect sound found _
      · have dropped := dropSession_effect sound found
        refine effect_trans dropped (createSession_effect sys dropped.1 ?_ chunk_size total_chunks)
        exact AList.lookup_erase _ _

theorem checkQuery_ok {m : Manager} {p : Bytes} {r : QueryRequest}
    (checked : checkQuery m p = .ok r) :
    8 ≤ p.length ∧ r.file_id = readU64BE p ∧ m.g_states.lookup r.file_id = some r.st := by
  unfold checkQuery at checked
  split at checked
  · contradiction
  · simp only at checked
    split at checked
    · contradiction
    · rename_i long _ _ found
      injection checked with checked
      subst checked
      exact ⟨by omega, rfl, found⟩

theorem handleFileQuery_effect {m : Manager} (sys : SysResults) (p : Bytes) (sound : Sound m) :
    Effect (readU64BE p) m (handleFileQuery sys p m).1 := by
  unfold handleFileQuery
  split
  · exact effect_refl _ sound
  · rename_i r checked
    obtain ⟨_, id, found⟩ := checkQuery_ok checked
    rw [← id]
    exact touch_effect sound found _

structure Accepted (m : Manager) (p : Bytes) (r : ChunkRequest) : Prop where
  long : 16 ≤ p.length
  id : r.file_id = readU64BE p
  chunk_index : r.chunk_index = readU32BE (p.drop 8)
  data : r.chunkData = p.drop 16
  session : m.g_states.lookup r.file_id = some r.st
  range : r.chunk_index < r.st.total_chunks
  nonempty : r.chunkData ≠ []
  size : r.chunk_index + 1 ≠ r.st.total_chunks → r.chunkData.length = r.st.chunk_size.toNat
  crc : CRC32.checksum r.chunkData = readU32BE (p.drop 12)

theorem checkChunk_ok {m : Manager} {p : Bytes} {r : ChunkRequest}
    (checked : checkChunk m p = .ok r) :
    Accepted m p r := by
  unfold checkChunk at checked
  split at checked
  · contradiction
  · rename_i long
    simp only at checked
    split at checked
    · contradiction
    · rename_i st found
      split at checked
      · contradiction
      · rename_i range
        split at checked
        · contradiction
        · rename_i nonempty
          split at checked
          · contradiction
          · rename_i size
            split at checked
            · contradiction
            · rename_i crc
              injection checked with checked
              subst checked
              refine ⟨by omega, rfl, rfl, rfl, found, ?_, ?_, ?_, not_not.mp crc⟩
              · exact UInt32.not_le.mp range
              · exact fun empty => nonempty (congrArg List.length empty)
              · intro inner
                by_contra differs
                exact size ⟨inner, differs⟩

theorem bitmap_inside {disk : FileSystem Bytes} {id : UInt64} {st : FileState}
    (session : Session disk id st) {i : UInt32} (range : i < st.total_chunks) :
    i.toNat / 8 < st.bitmap.length := by
  have bound : i.toNat < st.total_chunks.toNat := range
  rw [session.bitmap]
  omega

theorem not_received {st : FileState} {i : UInt32} (unmarked : bitmapGet st.bitmap i = false) :
    i.toNat ∉ received st.bitmap st.total_chunks := by
  rw [mem_received, UInt32.ofNat_toNat, unmarked]
  simp

/- The counter counts the new chunk once and cannot wrap. -/
theorem markReceived_session {disk : FileSystem Bytes} {id : UInt64} {st : FileState} {i : UInt32}
    (session : Session disk id st) (range : i < st.total_chunks)
    (unmarked : bitmapGet st.bitmap i = false) (now_seconds : UInt64) :
    Session disk id (markReceived st i now_seconds) := by
  have inside := bitmap_inside session range
  have grown := received_set range inside
  have card := Finset.card_insert_of_notMem (not_received unmarked)
  have limit := received_card_le (bitmapSet st.bitmap i) st.total_chunks
  rw [grown, card] at limit
  have word := st.total_chunks.toNat_lt
  have one : (1 : UInt32).toNat = 1 := rfl
  exact {
    own := session.own
    path := session.path
    opened := session.opened
    chunk_size := session.chunk_size
    total_chunks := session.total_chunks
    bitmap := by simp only [markReceived, bitmapSet, List.length_set, session.bitmap]
    count := by
      simp only [markReceived, grown, card, UInt32.toNat_add, session.count]
      exact Nat.mod_eq_of_lt (by omega) }

theorem session_read {disk : FileSystem Bytes} {id : UInt64} {st : FileState}
    (session : Session disk id st) : ∃ b, disk.read (makeTempPath id) = some b := by
  obtain ⟨fd, _, opened⟩ := session.opened
  rw [opened_read opened]
  exact opened_exists opened

theorem finishUpload_effect {m : Manager} {id : UInt64} {st : FileState} (sys : SysResults)
    (sound : Sound m) (found : m.g_states.lookup id = some st) :
    Effect id m (finishUpload sys id st m).1 := by
  have session := sound id st found
  have closed := closeFd_confined session.opened
  obtain ⟨b, bytes⟩ := session_read session
  have still : (closeFd m.disk st.fd).read (makeTempPath id) = some b := by
    obtain ⟨fd, here, _⟩ := session.opened
    rw [here]
    exact bytes
  unfold finishUpload
  split
  · exact effect_refl _ sound
  · simp only [session.own, session.path]
    split
    · apply erase_effect sound
      split
      · exact confined_trans closed (rename_confined still _)
      · exact closed
    · apply erase_effect sound
      split
      · exact confined_trans closed unlink_confined
      · exact closed

theorem chunkState_session {disk : FileSystem Bytes} {id : UInt64} {r : ChunkRequest}
    (session : Session disk id r.st) (range : r.chunk_index < r.st.total_chunks)
    (sys : SysResults) : Session disk id (chunkState sys r) := by
  unfold chunkState
  split
  · exact session
  · rename_i unmarked
    exact markReceived_session session range (by simpa using unmarked) _

theorem recordChunk_lookup {m : Manager} {r : ChunkRequest} (sys : SysResults)
    (found : m.g_states.lookup r.file_id = some r.st) :
    (recordChunk sys r m).g_states.lookup r.file_id = some (chunkState sys r) := by
  simp only [recordChunk, chunkState]
  split
  · exact found
  · exact AList.lookup_insert _

theorem recordChunk_effect {m : Manager} {r : ChunkRequest} (sys : SysResults) (sound : Sound m)
    (found : m.g_states.lookup r.file_id = some r.st)
    (range : r.chunk_index < r.st.total_chunks) : Effect r.file_id m (recordChunk sys r m) := by
  have effect : Local r.file_id m (recordChunk sys r m) := by
    intro other ne
    refine ⟨?_, confined_refl r.file_id m.disk other ne⟩
    simp only [recordChunk]
    split
    · rfl
    · exact AList.lookup_insert_ne ne
  refine ⟨sound_local sound effect ?_, effect⟩
  intro st found'
  rw [recordChunk_lookup sys found] at found'
  injection found' with same
  exact same ▸ chunkState_session (sound _ _ found) range sys

theorem write_effect {m : Manager} {id : UInt64} {st : FileState} (sys : SysResults)
    (sound : Sound m) (found : m.g_states.lookup id = some st) (data : Bytes) (offset : Int64) :
    Effect id m { m with disk := (pwriteAt sys m.disk st.fd data offset).2 } := by
  have session := sound _ _ found
  obtain ⟨fd, here, opened⟩ := session.opened
  obtain ⟨f, write⟩ := pwriteAt_modify sys m.disk fd data offset
  rw [here, write]
  apply disk_effect sound (modify_confined opened f)
  intro st' found'
  rw [found] at found'
  injection found' with same
  subst same
  exact { session with opened := ⟨fd, here, modify_opened f |>.mpr opened⟩ }

theorem storeChunk_effect {m : Manager} {p : Bytes} {r : ChunkRequest} (sys : SysResults)
    (sound : Sound m) (accepted : Accepted m p r) :
    Effect r.file_id m (storeChunk sys r m).1 := by
  have written := write_effect sys sound accepted.session r.chunkData
    (chunkOffset r.chunk_index r.st.chunk_size)
  unfold storeChunk
  cases result : pwriteAt sys m.disk r.st.fd r.chunkData
    (chunkOffset r.chunk_index r.st.chunk_size) with
  | mk count disk =>
    rw [result] at written
    simp only at written ⊢
    have recorded := recordChunk_effect sys written.1 accepted.session accepted.range
    have effect := effect_trans written recorded
    split
    · exact written
    · split
      · exact effect_trans effect
          (finishUpload_effect sys effect.1 (recordChunk_lookup sys accepted.session))
      · exact effect

theorem handleFileChunk_effect {m : Manager} (sys : SysResults) (p : Bytes) (sound : Sound m) :
    Effect (readU64BE p) m (handleFileChunk sys p m).1 := by
  unfold handleFileChunk
  split
  · exact effect_refl _ sound
  · rename_i r checked
    have accepted := checkChunk_ok checked
    rw [← accepted.id]
    exact storeChunk_effect sys sound accepted

/-- A message changes nothing but the session and the files of the id it names. -/
theorem handleClientMessage_effect {m : Manager} (sys : SysResults) (payload : Bytes)
    (sound : Sound m) :
    Effect (readU64BE payload.tail) m (handleClientMessage sys payload m).1 := by
  unfold handleClientMessage
  split
  · exact effect_refl _ sound
  · rename_i msgType p
    simp only [List.tail_cons]
    split
    · exact handleFileStart_effect sys p sound
    · split
      · exact handleFileQuery_effect sys p sound
      · split
        · exact handleFileChunk_effect sys p sound
        · exact effect_refl _ sound

theorem removeSession_none {m : Manager} (unlinkOk : UInt64 → Bool) {id : UInt64}
    (absent : m.g_states.lookup id = none) : removeSession unlinkOk m id = m := by
  simp only [removeSession, removal, absent]

theorem removeSession_some {m : Manager} (unlinkOk : UInt64 → Bool) {id : UInt64} {st : FileState}
    (found : m.g_states.lookup id = some st) :
    removeSession unlinkOk m id =
      { g_states := m.g_states.erase id
        disk :=
          if unlinkOk id then (closeFd m.disk st.fd).unlink st.temp_path
          else closeFd m.disk st.fd } := by
  simp only [removeSession, removal, found]
  cases st.fd <;> rfl

theorem removeSession_effect {m : Manager} (unlinkOk : UInt64 → Bool) (id : UInt64)
    (sound : Sound m) : Effect id m (removeSession unlinkOk m id) := by
  cases found : m.g_states.lookup id with
  | none =>
    rw [removeSession_none unlinkOk found]
    exact effect_refl _ sound
  | some st =>
    have session := sound id st found
    have closed := closeFd_confined session.opened
    rw [removeSession_some unlinkOk found]
    apply erase_effect sound
    simp only [session.path]
    split
    · exact confined_trans closed unlink_confined
    · exact closed

theorem removeSession_gone (unlinkOk : UInt64 → Bool) (m : Manager) (id : UInt64) :
    (removeSession unlinkOk m id).g_states.lookup id = none := by
  cases found : m.g_states.lookup id with
  | none => rw [removeSession_none unlinkOk found, found]
  | some st => simp only [removeSession_some unlinkOk found, AList.lookup_erase]

/- Removing a list of sessions ends every session in the list and no other. -/
theorem removeSessions {m : Manager} (unlinkOk : UInt64 → Bool) (ids : List UInt64)
    (sound : Sound m) :
    Sound (ids.foldl (removeSession unlinkOk) m) ∧
      ∀ id, (id ∈ ids → (ids.foldl (removeSession unlinkOk) m).g_states.lookup id = none) ∧
        (id ∉ ids → Keeps id m (ids.foldl (removeSession unlinkOk) m)) := by
  induction ids generalizing m with
  | nil => exact ⟨sound, fun id => ⟨by simp, fun _ => keeps_refl id m⟩⟩
  | cons first ids ih =>
    have effect := removeSession_effect unlinkOk first sound
    obtain ⟨later, each⟩ := ih effect.1
    refine ⟨later, fun id => ⟨?_, ?_⟩⟩
    · intro listed
      by_cases again : id ∈ ids
      · exact (each id).1 again
      · obtain rfl : id = first := by simpa [again] using listed
        rw [List.foldl_cons, ((each id).2 again).session, removeSession_gone]
    · intro listed
      simp only [List.mem_cons, not_or] at listed
      exact keeps_trans (effect.2 id listed.1) ((each id).2 listed.2)

theorem cleanupSessions_loops (order : OldestFirst) (unlinkOk : UInt64 → Bool)
    (now_seconds ttl_seconds : UInt64) (max_sessions : Nat) (m : Manager) :
    cleanupSessions order unlinkOk now_seconds ttl_seconds max_sessions m =
      (evictedIds order max_sessions ((expiredIds now_seconds ttl_seconds m).foldl
        (removeSession unlinkOk) m)).foldl (removeSession unlinkOk)
        ((expiredIds now_seconds ttl_seconds m).foldl (removeSession unlinkOk) m) :=
  rfl

theorem cleanupSessions_sound {m : Manager} (order : OldestFirst) (unlinkOk : UInt64 → Bool)
    (now_seconds ttl_seconds : UInt64) (max_sessions : Nat) (sound : Sound m) :
    Sound (cleanupSessions order unlinkOk now_seconds ttl_seconds max_sessions m) := by
  have expired := removeSessions unlinkOk (expiredIds now_seconds ttl_seconds m) sound
  rw [cleanupSessions_loops]
  exact (removeSessions unlinkOk _ expired.1).1

theorem cleanupSessions_keeps {m : Manager} {order : OldestFirst} {unlinkOk : UInt64 → Bool}
    {now_seconds ttl_seconds : UInt64} {max_sessions : Nat} {id : UInt64} (sound : Sound m)
    (remains : (cleanupSessions order unlinkOk now_seconds ttl_seconds max_sessions
      m).g_states.lookup id ≠ none) :
    Keeps id m (cleanupSessions order unlinkOk now_seconds ttl_seconds max_sessions m) := by
  rw [cleanupSessions_loops] at remains ⊢
  have expired := removeSessions unlinkOk (expiredIds now_seconds ttl_seconds m) sound
  generalize evictedIds order max_sessions _ = evicted at remains ⊢
  have evict := removeSessions unlinkOk evicted expired.1
  have kept := (evict.2 id).2 fun listed => remains ((evict.2 id).1 listed)
  rw [kept.session] at remains
  exact keeps_trans ((expired.2 id).2 fun listed => remains ((expired.2 id).1 listed)) kept

theorem perform_sound {m : Manager} (call : Call) (sound : Sound m) : Sound (perform m call).1 := by
  cases call with
  | message sys payload => exact (handleClientMessage_effect sys payload sound).1
  | cleanup order unlinkOk now_seconds ttl_seconds max_sessions =>
    exact cleanupSessions_sound order unlinkOk now_seconds ttl_seconds max_sessions sound

/-- The states of a server that started on some disk. -/
def Reachable (m : Manager) : Prop := Run.Reachable perform (fun s => ∃ disk, s = start disk) m

theorem start_empty {P : UInt64 → FileState → Prop} (disk : FileSystem Bytes) (id : UInt64)
    (st : FileState) (found : (start disk).g_states.lookup id = some st) : P id st := by
  simp only [start, AList.lookup_empty] at found
  contradiction

theorem start_sound (disk : FileSystem Bytes) : Sound (start disk) := start_empty disk

theorem reachable_sound {m : Manager} (reachable : Reachable m) : Sound m := by
  refine Run.invariant_reachable ?_ (fun s call => perform_sound call) reachable
  rintro s ⟨disk, rfl⟩
  exact start_sound disk

def SoundWith (P : Manager → Prop) (m : Manager) : Prop := Sound m ∧ P m

/- What every call keeps in a sound state holds in every reachable one. -/
theorem reachable_keeps {P : Manager → Prop} (begins : ∀ disk, P (start disk))
    (keeps : ∀ m call, Sound m → P m → P (perform m call).1) {m : Manager}
    (reachable : Reachable m) : P m := by
  have both : SoundWith P m := by
    apply Run.invariant_reachable _ _ reachable
    · rintro s ⟨disk, rfl⟩
      exact ⟨start_sound disk, begins disk⟩
    · intro s call holds
      exact ⟨perform_sound call holds.1, keeps s call holds.1 holds.2⟩
  exact both.2

/-- A payload leaves the session and the files of every id but its own alone, and the names of
    files of different ids, and of temporary and finished files, are never the same. -/
theorem uploads_apart :
    (∀ m, Reachable m → ∀ (sys : SysResults) (payload : Bytes) (other : UInt64),
      other ≠ readU64BE payload.tail → Keeps other m (handleClientMessage sys payload m).1) ∧
    (∀ (a b : UInt64) (q : Bytes), a ≠ b → OwnedBy a q → ¬ OwnedBy b q) ∧
    ∀ (a b : UInt64) (name : Bytes), makeTempPath a ≠ makeFinalPath b name := by
  refine ⟨?_, ?_, ?_⟩
  · intro m reachable sys payload other apart
    exact (handleClientMessage_effect sys payload (reachable_sound reachable)).2 other apart
  · intro a b q apart here there
    exact apart (owned_apart here there)
  · intro a b name same
    exact makeFinalPath_ne_makeTempPath b a name same.symm

end FileTransferManager
