import WebsocketServer.File.LastChunk
import WebsocketServer.File.Syscalls

/- Who owns the temporary files and the descriptors of the uploads. -/
namespace FileTransferManager
open FileSystem

/-- The manager's own temporary file of this id, if there is one: its inode came into being
    after the start. -/
def Ours (disk₀ disk : FileSystem Bytes) (id : UInt64) : Prop :=
  ∀ i, disk.dir (makeTempPath id) = some i → disk₀.unused ≤ i

/-- Nothing is left behind: a temporary file that the manager created belongs to a session, a
    descriptor that was not open at the start to exactly one, and the others stay open. -/
structure NoLeaks (disk₀ : FileSystem Bytes) (m : Manager) : Prop where
  files : ∀ id i, m.disk.dir (makeTempPath id) = some i → disk₀.unused ≤ i →
    (m.g_states.lookup id).isSome
  fds : ∀ fd i, m.disk.fds fd = some i → disk₀.fds fd = none →
    ∃! id, ∃ st, m.g_states.lookup id = some st ∧ st.fd = some fd
  foreign : ∀ fd i, disk₀.fds fd = some i → m.disk.fds fd = some i

/-- The chunk completes its upload and the file can be read back. -/
structure Finishes (sys : SysResults) (m : Manager) (r : ChunkRequest) : Prop where
  whole : r.chunkData.length ≤ writableBytes sys r
  last : missing r.st ⊆ {r.chunk_index.toNat}
  readable : ¬ Unreadable sys m r

def Begins (sys : SysResults) (m : Manager) (r : StartRequest) (e : Event) : Prop :=
  ∃ p, checkStart p = .ok r ∧
    (∀ ex, m.g_states.lookup r.file_id = some ex → r.resumes ex = false) ∧
    (e = .call (.message sys (MSG_FILE_START :: p)) ∨ e = .noMemory sys p)

/-- The exits that leave a file or a descriptor behind. -/
inductive Leaks (disk₀ : FileSystem Bytes) (m : Manager) : Event → Prop where
  | unopened {sys : SysResults} {r : StartRequest} {e : Event} (begins : Begins sys m r e)
      (replaces : m.g_states.lookup r.file_id ≠ none)
      (fails : openTemp sys (replaced m r.file_id).disk (makeTempPath r.file_id) = none)
      (ours : Ours disk₀ m.disk r.file_id) : Leaks disk₀ m e
  | untruncated {sys : SysResults} {r : StartRequest} {e : Event} (begins : Begins sys m r e)
      (opened : openTemp sys (replaced m r.file_id).disk (makeTempPath r.file_id) ≠ none)
      (fails : Untruncated sys r) (ours : Ours disk₀ m.disk r.file_id) : Leaks disk₀ m e
  | noMemory {sys : SysResults} {p : Bytes} {r : StartRequest}
      (begins : Begins sys m r (.noMemory sys p))
      (opened : openTemp sys (replaced m r.file_id).disk (makeTempPath r.file_id) ≠ none)
      (sized : ¬ Untruncated sys r) : Leaks disk₀ m (.noMemory sys p)
  | unrenamed {sys : SysResults} {p : Bytes} {r : ChunkRequest} (checked : checkChunk m p = .ok r)
      (finishes : Finishes sys m r)
      (passes : CRC32.checksum (writtenBytes m r) = r.st.expected_crc32)
      (fails : sys.renameOk = false) (ours : Ours disk₀ m.disk r.file_id) :
      Leaks disk₀ m (.call (.message sys (MSG_FILE_CHUNK :: p)))
  | unlinked {sys : SysResults} {p : Bytes} {r : ChunkRequest} (checked : checkChunk m p = .ok r)
      (finishes : Finishes sys m r)
      (differs : CRC32.checksum (writtenBytes m r) ≠ r.st.expected_crc32)
      (fails : sys.unlinkOk = false) (ours : Ours disk₀ m.disk r.file_id) :
      Leaks disk₀ m (.call (.message sys (MSG_FILE_CHUNK :: p)))
  | removed {order : OldestFirst} {unlinkOk : UInt64 → Bool} {now_seconds ttl_seconds : UInt64}
      {max_sessions : Nat} {id : UInt64}
      (listed : id ∈ removedIds order unlinkOk now_seconds ttl_seconds max_sessions m)
      (fails : unlinkOk id = false) (ours : Ours disk₀ m.disk id) :
      Leaks disk₀ m (.call (.cleanup order unlinkOk now_seconds ttl_seconds max_sessions))
  | noReply {sys : SysResults} {payload : Bytes}
      (leaks : Leaks disk₀ m (.call (.message sys payload))) : Leaks disk₀ m (.noReply sys payload)

structure Descriptors (disk₀ : FileSystem Bytes) (m : Manager) : Prop where
  held : ∀ fd i, m.disk.fds fd = some i → disk₀.fds fd = none →
    ∃ id st, m.g_states.lookup id = some st ∧ st.fd = some fd
  foreign : ∀ fd i, disk₀.fds fd = some i → m.disk.fds fd = some i
  own : ∀ id st fd, m.g_states.lookup id = some st → st.fd = some fd → disk₀.fds fd = none

def FileKept (disk₀ : FileSystem Bytes) (m : Manager) (id : UInt64) : Prop :=
  ∀ i, m.disk.dir (makeTempPath id) = some i → disk₀.unused ≤ i → m.g_states.lookup id ≠ none

structure Owned (disk₀ : FileSystem Bytes) (m : Manager) : Prop where
  descriptors : Descriptors disk₀ m
  files : ∀ id, FileKept disk₀ m id

section
variable {disk₀ disk : FileSystem Bytes} {m m' : Manager} {id : UInt64} {st : FileState} {fd : Nat}

theorem fd_unique (sound : Sound m) {a b : UInt64} {sta stb : FileState}
    (here : m.g_states.lookup a = some sta) (there : m.g_states.lookup b = some stb)
    (first : sta.fd = some fd) (second : stb.fd = some fd) : a = b := by
  obtain ⟨fda, fa, openeda⟩ := (sound a sta here).opened
  obtain ⟨fdb, fb, openedb⟩ := (sound b stb there).opened
  obtain rfl : fd = fda := Option.some.inj (first.symm.trans fa)
  obtain rfl : fd = fdb := Option.some.inj (second.symm.trans fb)
  exact makeTempPath_injective (opened_unique openeda openedb)

theorem owned_noLeaks (sound : Sound m) (owned : Owned disk₀ m) : NoLeaks disk₀ m := by
  obtain ⟨descriptors, files⟩ := owned
  refine ⟨?_, ?_, descriptors.foreign⟩
  · intro id i named created
    exact Option.isSome_iff_ne_none.mpr (files id i named created)
  · intro fd i used new
    obtain ⟨id, st, found, own⟩ := descriptors.held fd i used new
    refine ⟨id, ⟨st, found, own⟩, ?_⟩
    rintro id' ⟨st', found', own'⟩
    exact fd_unique sound found' found own' own

def SameSessions (m m' : Manager) : Prop :=
  ∀ id, (m'.g_states.lookup id).map FileState.fd = (m.g_states.lookup id).map FileState.fd

theorem descriptors_same (descriptors : Descriptors disk₀ m) (fds : m'.disk.fds = m.disk.fds)
    (sessions : SameSessions m m') : Descriptors disk₀ m' := by
  have back (id : UInt64) (st' : FileState) (found : m'.g_states.lookup id = some st') :
      ∃ st, m.g_states.lookup id = some st ∧ st.fd = st'.fd := by
    have same := sessions id
    rw [found, Option.map_some] at same
    obtain ⟨st, here, fd⟩ := Option.map_eq_some_iff.mp same.symm
    exact ⟨st, here, fd⟩
  refine ⟨?_, ?_, ?_⟩
  · intro fd i used new
    rw [fds] at used
    obtain ⟨id, st, found, own⟩ := descriptors.held fd i used new
    have same := sessions id
    rw [found, Option.map_some] at same
    obtain ⟨st', here, fd'⟩ := Option.map_eq_some_iff.mp same
    exact ⟨id, st', here, fd'.trans own⟩
  · intro fd i used
    rw [fds]
    exact descriptors.foreign fd i used
  · intro id st' fd found own
    obtain ⟨st, here, same⟩ := back id st' found
    exact descriptors.own id st fd here (same.trans own)

theorem ended_descriptors (descriptors : Descriptors disk₀ m)
    (found : m.g_states.lookup id = some st) (own : st.fd = some fd)
    (fds : disk.fds = Function.update m.disk.fds fd none) :
    Descriptors disk₀ ⟨m.g_states.erase id, disk⟩ := by
  refine ⟨?_, ?_, ?_⟩
  · intro fd' i used new
    simp only [fds, Function.update_apply] at used
    split at used
    · contradiction
    · rename_i other
      obtain ⟨id', st', found', own'⟩ := descriptors.held fd' i used new
      have apart : id' ≠ id := by
        rintro rfl
        rw [found] at found'
        obtain rfl := Option.some.inj found'
        exact other (Option.some.inj (own'.symm.trans own))
      exact ⟨id', st', (AList.lookup_erase_ne apart).trans found', own'⟩
  · intro fd' i used
    have apart : fd' ≠ fd := by
      rintro rfl
      rw [descriptors.own id st fd' found own] at used
      contradiction
    simp only [fds, Function.update_of_ne apart]
    exact descriptors.foreign fd' i used
  · intro id' st' fd' found' own'
    by_cases same : id' = id
    · subst same
      simp only [AList.lookup_erase] at found'
      contradiction
    · exact descriptors.own id' st' fd' ((AList.lookup_erase_ne same).symm.trans found') own'

theorem begun_descriptors {i : Nat} (descriptors : Descriptors disk₀ m)
    (absent : m.g_states.lookup id = none) (free : m.disk.fds fd = none) (own : st.fd = some fd)
    (fds : disk.fds = Function.update m.disk.fds fd (some i)) :
    Descriptors disk₀ ⟨m.g_states.insert id st, disk⟩ := by
  have new : disk₀.fds fd = none := by
    cases used : disk₀.fds fd with
    | none => rfl
    | some j =>
      have still := descriptors.foreign fd j used
      rw [free] at still
      contradiction
  refine ⟨?_, ?_, ?_⟩
  · intro fd' j used fresh
    by_cases same : fd' = fd
    · exact ⟨id, st, AList.lookup_insert _, same ▸ own⟩
    · simp only [fds, Function.update_of_ne same] at used
      obtain ⟨id', st', found', own'⟩ := descriptors.held fd' j used fresh
      have apart : id' ≠ id := by
        rintro rfl
        rw [absent] at found'
        contradiction
      exact ⟨id', st', (AList.lookup_insert_ne apart).trans found', own'⟩
  · intro fd' j used
    have apart : fd' ≠ fd := by
      rintro rfl
      rw [new] at used
      contradiction
    simp only [fds, Function.update_of_ne apart]
    exact descriptors.foreign fd' j used
  · intro id' st' fd' found' own'
    by_cases same : id' = id
    · subst same
      obtain rfl := Option.some.inj ((AList.lookup_insert _).symm.trans found')
      obtain rfl := Option.some.inj (own.symm.trans own')
      exact new
    · exact descriptors.own id' st' fd' ((AList.lookup_insert_ne same).symm.trans found') own'

theorem owned_same (owned : Owned disk₀ m) (fds : m'.disk.fds = m.disk.fds)
    (dir : m'.disk.dir = m.disk.dir) (sessions : SameSessions m m') : Owned disk₀ m' := by
  refine ⟨descriptors_same owned.descriptors fds sessions, ?_⟩
  intro id i named created gone
  rw [dir] at named
  apply owned.files id i named created
  have same := sessions id
  rw [gone, Option.map_none] at same
  exact Option.map_eq_none_iff.mp same.symm

theorem ended_owned (owned : Owned disk₀ m) (found : m.g_states.lookup id = some st)
    (own : st.fd = some fd) (fds : disk.fds = Function.update m.disk.fds fd none)
    (others : ∀ other, other ≠ id →
      disk.dir (makeTempPath other) = m.disk.dir (makeTempPath other))
    (here : ∀ i, disk.dir (makeTempPath id) = some i → ¬ disk₀.unused ≤ i) :
    Owned disk₀ ⟨m.g_states.erase id, disk⟩ := by
  refine ⟨ended_descriptors owned.descriptors found own fds, ?_⟩
  intro other i named created
  by_cases same : other = id
  · subst same
    exact absurd created (here i named)
  · rw [show (⟨m.g_states.erase id, disk⟩ : Manager).g_states.lookup other =
      m.g_states.lookup other from AList.lookup_erase_ne same]
    exact owned.files other i ((others other same).symm.trans named) created

theorem ours_created {i : Nat} (named : disk.dir (makeTempPath id) = some i)
    (created : disk₀.unused ≤ i) : Ours disk₀ disk id := by
  intro j found
  obtain rfl := Option.some.inj (named.symm.trans found)
  exact created

theorem temp_apart {a b : UInt64} (other : a ≠ b) : makeTempPath a ≠ makeTempPath b :=
  fun same => other (makeTempPath_injective same)

theorem closed_owned (owned : Owned disk₀ m) (found : m.g_states.lookup id = some st)
    (own : st.fd = some fd) (fate : ¬ Ours disk₀ m.disk id) :
    Owned disk₀ ⟨m.g_states.erase id, m.disk.close fd⟩ :=
  ended_owned owned found own (close_fds _ _) (fun other _ => by rw [close_dir])
    fun _ named created => fate (ours_created named created)

theorem unlinked_owned (owned : Owned disk₀ m) (found : m.g_states.lookup id = some st)
    (own : st.fd = some fd) :
    Owned disk₀ ⟨m.g_states.erase id, (m.disk.close fd).unlink (makeTempPath id)⟩ := by
  apply ended_owned owned found own
  · rw [unlink_fds, close_fds]
  · intro other apart
    rw [unlink_dir, Function.update_of_ne (temp_apart apart), close_dir]
  · intro i named
    rw [unlink_dir, Function.update_self] at named
    contradiction

theorem renamed_owned {name : Bytes} (owned : Owned disk₀ m)
    (found : m.g_states.lookup id = some st) (own : st.fd = some fd) :
    Owned disk₀ ⟨m.g_states.erase id,
      (m.disk.close fd).rename (makeTempPath id) (makeFinalPath id name)⟩ := by
  have final (other : UInt64) : makeTempPath other ≠ makeFinalPath id name :=
    (makeFinalPath_ne_makeTempPath id other name).symm
  apply ended_owned owned found own
  · rw [rename_fds, close_fds]
  · intro other apart
    rw [rename_dir_other _ _ _ _ (temp_apart apart) (final other), close_dir]
  · intro i named
    rw [rename_dir_old _ _ _ (final id)] at named
    contradiction

end

inductive CreateMove (sys : SysResults) (r : StartRequest) (m : Manager) : Manager → Prop where
  | unopened (fails : openTemp sys m.disk (makeTempPath r.file_id) = none) :
      CreateMove sys r m m
  | untruncated {fd : Nat} (free : m.disk.fds fd = none)
      (opened : openTemp sys m.disk (makeTempPath r.file_id) ≠ none) (fails : Untruncated sys r) :
      CreateMove sys r m
        { m with disk := (m.disk.openTruncate (makeTempPath r.file_id) fd).close fd }
  | begun {fd n : Nat} {st : FileState} (free : m.disk.fds fd = none) (own : st.fd = some fd)
      (request : st.file_size = r.file_size ∧ st.chunk_size = r.chunk_size ∧
        st.total_chunks = r.total_chunks ∧ st.expected_crc32 = r.expected_crc32) :
      CreateMove sys r m ⟨m.g_states.insert r.file_id st,
        (m.disk.openTruncate (makeTempPath r.file_id) fd).ftruncate fd n⟩

theorem createSession_move (sys : SysResults) (r : StartRequest) (m : Manager) :
    CreateMove sys r m (createSession sys r m).1 := by
  rcases createSession_cases sys r m with ⟨fails, run⟩ | ⟨fd, free, opened, ⟨fails, run⟩ | ⟨_, run⟩⟩
  · rw [run]
    exact .unopened fails
  · rw [run]
    have done : openTemp sys m.disk (makeTempPath r.file_id) ≠ none := by simp [opened]
    exact .untruncated free done (truncateTo_none.mp fails)
  · rw [run]
    exact .begun free rfl ⟨rfl, rfl, rfl, rfl⟩

theorem createWithoutMemory_move {sys : SysResults} {r : StartRequest} {m : Manager}
    (avoids : openTemp sys m.disk (makeTempPath r.file_id) ≠ none → Untruncated sys r) :
    CreateMove sys r m (createWithoutMemory sys r m).1 := by
  unfold createWithoutMemory
  cases opened : openTemp sys m.disk (makeTempPath r.file_id) with
  | none => exact .unopened opened
  | some handle =>
    obtain ⟨fd, disk⟩ := handle
    obtain ⟨free, rfl⟩ := openTemp_some opened
    have done : openTemp sys m.disk (makeTempPath r.file_id) ≠ none := by simp [opened]
    have fails := avoids done
    simp only [truncateTo_none.mpr fails]
    exact .untruncated free done fails

section
variable {disk₀ : FileSystem Bytes} {m m' : Manager} {sys : SysResults} {r : StartRequest}
  {id : UInt64}

theorem created_owned (move : CreateMove sys r m m') (descriptors : Descriptors disk₀ m)
    (absent : m.g_states.lookup r.file_id = none)
    (others : ∀ other, other ≠ r.file_id → FileKept disk₀ m other)
    (unopened : openTemp sys m.disk (makeTempPath r.file_id) = none →
      FileKept disk₀ m r.file_id)
    (untruncated : openTemp sys m.disk (makeTempPath r.file_id) ≠ none → Untruncated sys r →
      ¬ Ours disk₀ m.disk r.file_id) : Owned disk₀ m' := by
  cases move with
  | unopened fails =>
    refine ⟨descriptors, ?_⟩
    intro other
    by_cases same : other = r.file_id
    · exact same ▸ unopened fails
    · exact others other same
  | @untruncated fd free opened fails =>
    constructor
    · refine descriptors_same descriptors ?_ (fun _ => rfl)
      simp only [close_fds, open_fds, Function.update_idem]
      rw [← free, Function.update_eq_self]
    · intro other i named created
      simp only [close_dir, open_dir, Function.update_apply] at named
      split at named
      · -- The file is there, with an inode of the start or one that open made.
        exfalso
        apply untruncated opened fails
        intro j old
        rw [old, Option.getD_some] at named
        obtain rfl := Option.some.inj named
        exact created
      · rename_i apart
        exact others other (fun same => apart (congrArg makeTempPath same)) i named created
  | @begun fd n st free own request =>
    constructor
    · apply begun_descriptors descriptors absent free own
      rw [ftruncate, modify_fds, open_fds]
    · intro other i named created
      by_cases same : other = r.file_id
      · subst same
        simp only [AList.lookup_insert, ne_eq, reduceCtorEq, not_false_eq_true]
      · simp only [ftruncate, modify_dir, open_dir,
          Function.update_of_ne (temp_apart same)] at named
        simp only [AList.lookup_insert_ne same]
        exact others other same i named created

theorem replaced_dir (m : Manager) (id : UInt64) : (replaced m id).disk.dir = m.disk.dir := by
  unfold replaced
  split
  · rfl
  · rename_i ex _
    unfold dropSession closeFd
    cases ex.fd <;> rfl

theorem replaced_descriptors (sound : Sound m) (descriptors : Descriptors disk₀ m) :
    Descriptors disk₀ (replaced m id) := by
  unfold replaced
  split
  · exact descriptors
  · rename_i ex found
    obtain ⟨fd, own, _⟩ := (sound id ex found).opened
    apply ended_descriptors descriptors found own
    rw [own, closeFd, close_fds]

theorem replaced_kept {other : UInt64} (apart : other ≠ id) (kept : FileKept disk₀ m other) :
    FileKept disk₀ (replaced m id) other := by
  intro i named created
  rw [replaced_dir] at named
  have still := kept i named created
  unfold replaced
  split
  · exact still
  · exact fun gone => still ((AList.lookup_erase_ne apart).symm.trans gone)

theorem begun_owned {e : Event} (sound : Sound m) (owned : Owned disk₀ m)
    (begins : Begins sys m r e) (avoids : ¬ Leaks disk₀ m e)
    (move : CreateMove sys r (replaced m r.file_id) m') : Owned disk₀ m' := by
  apply created_owned move (replaced_descriptors sound owned.descriptors)
    (replaced_absent m r.file_id)
    (fun other apart => replaced_kept apart (owned.files other))
  · intro fails i named created
    rw [replaced_dir] at named
    have live := owned.files r.file_id i named created
    exact absurd (.unopened begins live fails (ours_created named created)) avoids
  · intro opened fails ours
    unfold Ours at ours
    rw [replaced_dir] at ours
    exact avoids (.untruncated begins opened fails ours)

theorem touch_same {ex : FileState} (found : m.g_states.lookup id = some ex)
    (now_seconds : UInt64) : SameSessions m (touch m id ex now_seconds) := by
  intro other
  by_cases same : other = id
  · subst same
    simp only [touch, AList.lookup_insert, found, Option.map_some]
  · simp only [touch, AList.lookup_insert_ne same]

theorem recorded_same {r : ChunkRequest} {disk : FileSystem Bytes}
    (found : m.g_states.lookup r.file_id = some r.st) :
    SameSessions m (recordChunk sys r { m with disk }) := by
  intro other
  by_cases same : other = r.file_id
  · subst same
    rw [recordChunk_lookup (m := { m with disk }) sys found, found]
    unfold chunkState
    split <;> rfl
  · simp only [recordChunk]
    split
    · rfl
    · rw [AList.lookup_insert_ne same]

theorem finished_owned {st : FileState} (sound : Sound m) (owned : Owned disk₀ m)
    (found : m.g_states.lookup id = some st)
    (renames : computeFdCrc32 sys m.disk st.fd = .ok st.expected_crc32 →
      sys.renameOk = false → ¬ Ours disk₀ m.disk id)
    (unlinks : ∀ crc, computeFdCrc32 sys m.disk st.fd = .ok crc → crc ≠ st.expected_crc32 →
      sys.unlinkOk = false → ¬ Ours disk₀ m.disk id) :
    Owned disk₀ (finishUpload sys id st m).1 := by
  have session := sound id st found
  obtain ⟨fd, own, _⟩ := session.opened
  rcases finishUpload_cases sys id st m with
    ⟨what, _, ends⟩ | ⟨passes, ends⟩ | ⟨crc, fails, differs, ends⟩ <;> rw [ends]
  · exact owned
  · simp only [own, closeFd, session.path, session.own]
    cases renamed : sys.renameOk with
    | true => exact renamed_owned owned found own
    | false => exact closed_owned owned found own (renames passes renamed)
  · simp only [own, closeFd, session.path]
    cases unlinked : sys.unlinkOk with
    | true => exact unlinked_owned owned found own
    | false => exact closed_owned owned found own (unlinks crc fails differs unlinked)

theorem stored_owned {p : Bytes} {r : ChunkRequest} (sound : Sound m) (owned : Owned disk₀ m)
    (checked : checkChunk m p = .ok r)
    (avoids : ¬ Leaks disk₀ m (.call (.message sys (MSG_FILE_CHUNK :: p)))) :
    Owned disk₀ (storeChunk sys r m).1 := by
  have accepted := checkChunk_ok checked
  have session := sound _ _ accepted.session
  obtain ⟨fd, own, _⟩ := session.opened
  obtain ⟨f, write⟩ := pwriteAt_modify sys m.disk fd r.chunkData
    (chunkOffset r.chunk_index r.st.chunk_size)
  rw [← own] at write
  have written := write_effect sys sound accepted.session r.chunkData
    (chunkOffset r.chunk_index r.st.chunk_size)
  rcases storeChunk_cases sys r m with
    ⟨_, result⟩ | ⟨_, _, result⟩ | ⟨whole, full, result⟩ <;> rw [result]
  · refine owned_same owned ?_ ?_ (fun _ => rfl)
    · simp only [write, modify_fds]
    · simp only [write, modify_dir]
  · refine owned_same owned ?_ ?_ (recorded_same accepted.session)
    · simp only [recordChunk, write, modify_fds]
    · simp only [recordChunk, write, modify_dir]
  · have taken := (accepted_whole sys sound accepted).mp whole
    have recorded := recordChunk_effect sys written.1 accepted.session accepted.range
    have found := recordChunk_lookup (m := { m with disk := (pwriteAt sys m.disk r.st.fd r.chunkData
      (chunkOffset r.chunk_index r.st.chunk_size)).2 }) sys accepted.session
    have last := (recorded_full sound accepted).mp full
    obtain ⟨fd', own', after⟩ := written_bytes sound accepted taken
    obtain rfl : fd = fd' := Option.some.inj (own.symm.trans own')
    have same_fd : (chunkState sys r).fd = some fd := by
      rw [← own]
      unfold chunkState
      split <;> rfl
    have expected : (chunkState sys r).expected_crc32 = r.st.expected_crc32 :=
      (chunkState_declared sys r).2.1
    have readable {crc : UInt32} (done : computeFdCrc32 sys (pwriteAt sys m.disk r.st.fd
        r.chunkData (chunkOffset r.chunk_index r.st.chunk_size)).2 (some fd) = .ok crc) :
        Finishes sys m r ∧ CRC32.checksum (writtenBytes m r) = crc := by
      refine ⟨⟨taken, last, ?_⟩, (computeFdCrc32_ok after done).symm⟩
      intro unreadable
      obtain ⟨what, fails⟩ := (written_readable sound accepted taken).mpr unreadable
      rw [own] at fails done
      rw [fails] at done
      contradiction
    have before (ours : Ours disk₀ (recordChunk sys r { m with disk := (pwriteAt sys m.disk r.st.fd
        r.chunkData (chunkOffset r.chunk_index r.st.chunk_size)).2 }).disk r.file_id) :
        Ours disk₀ m.disk r.file_id := by
      simp only [recordChunk, write] at ours
      unfold Ours at ours
      rw [modify_dir] at ours
      exact ours
    apply finished_owned recorded.1 _ found
    · intro passes fails ours
      rw [same_fd, expected] at passes
      obtain ⟨finishes, crc⟩ := readable passes
      exact avoids (.unrenamed checked finishes crc fails (before ours))
    · intro crc done differs fails ours
      rw [same_fd] at done
      rw [expected] at differs
      obtain ⟨finishes, value⟩ := readable done
      exact avoids (.unlinked checked finishes (value ▸ differs) fails (before ours))
    · refine owned_same owned ?_ ?_ (recorded_same accepted.session)
      · simp only [recordChunk, write, modify_fds]
      · simp only [recordChunk, write, modify_dir]

theorem removed_owned {unlinkOk : UInt64 → Bool} (sound : Sound m) (owned : Owned disk₀ m)
    (unlinks : unlinkOk id = false → ¬ Ours disk₀ m.disk id) :
    Owned disk₀ (removeSession unlinkOk m id) := by
  cases found : m.g_states.lookup id with
  | none =>
    rw [removeSession_none unlinkOk found]
    exact owned
  | some st =>
    have session := sound id st found
    obtain ⟨fd, own, _⟩ := session.opened
    simp only [removeSession_some unlinkOk found, own, closeFd, session.path]
    cases unlinked : unlinkOk id with
    | true => exact unlinked_owned owned found own
    | false => exact closed_owned owned found own (unlinks unlinked)

theorem removed_dir {unlinkOk : UInt64 → Bool} {other : UInt64} (sound : Sound m)
    (kept : unlinkOk other = false) :
    (removeSession unlinkOk m id).disk.dir (makeTempPath other) =
      m.disk.dir (makeTempPath other) := by
  cases found : m.g_states.lookup id with
  | none => rw [removeSession_none unlinkOk found]
  | some st =>
    have session := sound id st found
    obtain ⟨fd, own, _⟩ := session.opened
    simp only [removeSession_some unlinkOk found, own, closeFd, session.path]
    cases unlinked : unlinkOk id with
    | true =>
      have apart : other ≠ id := by
        rintro rfl
        rw [kept] at unlinked
        contradiction
      rw [if_pos rfl, unlink_dir, Function.update_of_ne (temp_apart apart), close_dir]
    | false => rfl

theorem removals_owned {unlinkOk : UInt64 → Bool} {ids : List UInt64} (sound : Sound m)
    (owned : Owned disk₀ m)
    (unlinks : ∀ id ∈ ids, unlinkOk id = false → ¬ Ours disk₀ m.disk id) :
    Owned disk₀ (ids.foldl (removeSession unlinkOk) m) := by
  induction ids generalizing m with
  | nil => exact owned
  | cons id ids ih =>
    apply ih (removeSession_effect unlinkOk id sound).1
      (removed_owned sound owned (unlinks id List.mem_cons_self))
    intro other listed kept
    unfold Ours
    rw [removed_dir sound kept]
    exact unlinks other (List.mem_cons_of_mem _ listed) kept

theorem message_owned {payload : Bytes} (sound : Sound m) (owned : Owned disk₀ m)
    (avoids : ¬ Leaks disk₀ m (.call (.message sys payload))) :
    Owned disk₀ (handleClientMessage sys payload m).1 := by
  have all := handled sys payload m
  generalize handleClientMessage sys payload m = outcome at all
  cases all with
  | refused rejected => exact owned
  | resumed checked found same => exact owned_same owned rfl rfl (touch_same found _)
  | @created p r checked fresh =>
    exact begun_owned sound owned ⟨p, checked, fresh, .inl rfl⟩ avoids (createSession_move sys r _)
  | @queried p r checked =>
    exact owned_same owned rfl rfl (touch_same (checkQuery_ok checked).2.2 _)
  | stored checked => exact stored_owned sound owned checked avoids

theorem startWithoutMemory_cases (sys : SysResults) (p : Bytes) (m : Manager) :
    (startCalls sys p m = [] ∧ (startWithoutMemory sys p m).1 = m) ∨
    (∃ id ex, startCalls sys p m = [] ∧ m.g_states.lookup id = some ex ∧
      (startWithoutMemory sys p m).1 = touch m id ex sys.now_seconds) ∨
    ∃ r, Begins sys m r (.noMemory sys p) ∧
      (startWithoutMemory sys p m).1 =
        (createWithoutMemory sys r (replaced m r.file_id)).1 := by
  unfold startWithoutMemory startCalls
  cases checked : checkStart p with
  | error reply => exact .inl ⟨rfl, rfl⟩
  | ok r =>
    right
    simp only
    cases found : m.g_states.lookup r.file_id with
    | none =>
      right
      refine ⟨r, ⟨p, checked, ?_, .inr rfl⟩, ?_⟩
      · intro ex here
        rw [found] at here
        contradiction
      · simp only [replaced, found]
    | some ex =>
      simp only
      by_cases resumes : r.resumes ex = true
      · left
        refine ⟨r.file_id, ex, if_pos resumes, found, ?_⟩
        rw [if_pos resumes]
        simp only [handleFileStart, checked, found, resumes, ↓reduceIte]
      · right
        refine ⟨r, ⟨p, checked, ?_, .inr rfl⟩, ?_⟩
        · intro ex' here
          rw [found] at here
          obtain rfl := Option.some.inj here
          simpa using resumes
        · rw [if_neg resumes]
          simp only [replaced, found]

end

end FileTransferManager
