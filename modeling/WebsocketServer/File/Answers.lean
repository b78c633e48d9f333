import WebsocketServer.Library.Dialogue
import WebsocketServer.File.Upload
import WebsocketServer.Client.Resume

/- What the server answers to a client that uploads a file step by step, and what others may do in
   the meantime. -/
namespace FileTransferManager
open FileSystem

/-- The file is stored under its name and its session is gone. -/
structure Completed (u : Upload) (m : Manager) : Prop where
  sound : Sound m
  ended : m.g_states.lookup u.id = none
  stored : m.disk.read (makeFinalPath u.id (sanitizeOriginalFilename u.request.raw_filename)) =
    some u.data

def Unfinished (u : Upload) (m : Manager) (done : Finset Nat) : Prop :=
  Progress u m done ∧ ∃ k < u.request.total_chunks.toNat, k ∉ done

/-- The FILE_START of the upload would begin a session of its own. -/
def Fresh (u : Upload) (m : Manager) : Prop :=
  ∀ ex, m.g_states.lookup u.id = some ex → u.request.resumes ex = false

/-- There is no session to resume, or one that some chunks are missing from. -/
def Ready (u : Upload) (m : Manager) : Prop :=
  Sound m ∧ (Fresh u m ∨ ∃ done, Unfinished u m done)

def Marks (u : Upload) (bitmap : Bytes) (done : Finset Nat) : Prop :=
  bitmap.length = (u.request.total_chunks.toNat + 7) / 8 ∧
    ∀ i < u.request.total_chunks, bitmapGet bitmap i = true ↔ i.toNat ∈ done

/-- What others may do: messages about other files, messages that are refused, and cleanups that
    leave the session in the table. -/
inductive Elsewhere (id : UInt64) (m : Manager) : Call → Prop where
  | foreign {sys : SysResults} {payload : Bytes} (other : readU64BE payload.tail ≠ id) :
      Elsewhere id m (.message sys payload)
  | refused {sys : SysResults} {payload : Bytes} (rejected : Rejected m payload) :
      Elsewhere id m (.message sys payload)
  | cleanup {order : OldestFirst} {unlinkOk : UInt64 → Bool} {now_seconds ttl_seconds : UInt64}
      {max_sessions : Nat}
      (remains : m.g_states.lookup id ≠ none → (cleanupSessions order unlinkOk now_seconds
        ttl_seconds max_sessions m).g_states.lookup id ≠ none) :
      Elsewhere id m (.cleanup order unlinkOk now_seconds ttl_seconds max_sessions)

section
variable {m : Manager} {id : UInt64}

theorem removeSessions_absent (unlinkOk : UInt64 → Bool) (ids : List UInt64) (sound : Sound m)
    (absent : m.g_states.lookup id = none) :
    Keeps id m (ids.foldl (removeSession unlinkOk) m) := by
  induction ids generalizing m with
  | nil => exact keeps_refl id m
  | cons first ids ih =>
    have effect := removeSession_effect unlinkOk first sound
    have kept : Keeps id m (removeSession unlinkOk m first) := by
      by_cases same : id = first
      · subst same
        rw [removeSession_none unlinkOk absent]
        exact keeps_refl id m
      · exact effect.2 id same
    have later := ih effect.1 (by rw [kept.session, absent])
    exact keeps_trans kept later

theorem cleanupSessions_absent {order : OldestFirst} {unlinkOk : UInt64 → Bool}
    {now_seconds ttl_seconds : UInt64} {max_sessions : Nat} (sound : Sound m)
    (absent : m.g_states.lookup id = none) :
    Keeps id m (cleanupSessions order unlinkOk now_seconds ttl_seconds max_sessions m) := by
  have expired := removeSessions_absent unlinkOk (expiredIds now_seconds ttl_seconds m) sound absent
  have sound' := (removeSessions unlinkOk (expiredIds now_seconds ttl_seconds m) sound).1
  rw [cleanupSessions_loops]
  have absent' := expired.session.trans absent
  exact keeps_trans expired (removeSessions_absent unlinkOk _ sound' absent')

theorem elsewhere_keeps {call : Call} (sound : Sound m) (elsewhere : Elsewhere id m call) :
    Sound (perform m call).1 ∧ Keeps id m (perform m call).1 := by
  refine ⟨perform_sound call sound, ?_⟩
  cases elsewhere with
  | foreign other => exact (handleClientMessage_effect _ _ sound).2 id other.symm
  | @refused sys payload rejected =>
    have same := (rejected_unchanged sys rejected).1
    simp only [perform, same]
    exact keeps_refl id m
  | cleanup remains =>
    by_cases absent : m.g_states.lookup id = none
    · exact cleanupSessions_absent sound absent
    · exact cleanupSessions_keeps sound (remains absent)

end

section
variable {u : Upload} {m m' : Manager} {done : Finset Nat} {sys : SysResults}

theorem unfinished_kept (unfinished : Unfinished u m done) (sound : Sound m')
    (keeps : Keeps u.id m m') : Unfinished u m' done :=
  ⟨progress_kept unfinished.1 sound keeps, unfinished.2⟩

theorem fresh_kept (fresh : Fresh u m) (keeps : Keeps u.id m m') : Fresh u m' := by
  unfold Fresh
  rw [keeps.session]
  exact fresh

theorem ready_kept (ready : Ready u m) (sound : Sound m') (keeps : Keeps u.id m m') :
    Ready u m' := by
  refine ⟨sound, ?_⟩
  rcases ready.2 with fresh | ⟨done, unfinished⟩
  · exact .inl (fresh_kept fresh keeps)
  · exact .inr ⟨done, unfinished_kept unfinished sound keeps⟩

theorem completed_kept (completed : Completed u m) (sound : Sound m') (keeps : Keeps u.id m m') :
    Completed u m' := by
  refine ⟨sound, ?_, ?_⟩
  · rw [keeps.session, completed.ended]
  · rw [keeps.disk.bytes _ (.inr ⟨_, rfl⟩), completed.stored]

theorem session_marks {st : FileState} (progress : Progress u m done)
    (found : m.g_states.lookup u.id = some st) : Marks u st.bitmap done := by
  obtain ⟨st', found', -, -, total, -, -, marks⟩ := progress.session
  rw [found] at found'
  obtain rfl := Option.some.inj found'
  refine ⟨?_, ?_⟩
  · rw [← total]
    exact (progress.sound _ _ found).bitmap
  · intro i range
    rw [← total] at range
    rw [← marks, mem_received, UInt32.ofNat_toNat]
    exact ⟨fun bit => ⟨range, bit⟩, fun member => member.2⟩

structure Told (u : Upload) (m : Manager) (done : Finset Nat) (replies : List Bytes) : Prop where
  unfinished : Unfinished u m done
  reply : ∃ bitmap, replies = [queryResponse u.id u.request.total_chunks bitmap] ∧
    Marks u bitmap done

theorem asked_told {payload : Bytes} {st : FileState} (unfinished : Unfinished u m done)
    (found : m.g_states.lookup u.id = some st) (asks : AsksAgain u.id st payload) :
    Told u (handleClientMessage sys payload m).1 done (handleClientMessage sys payload m).2 := by
  obtain ⟨st', found', -, -, total, -⟩ := unfinished.1.session
  rw [found] at found'
  obtain rfl := Option.some.inj found'
  rw [asked_reply found asks sys, total]
  exact ⟨⟨progress_touched unfinished.1 found _, unfinished.2⟩, st.bitmap, rfl,
    session_marks unfinished.1 found⟩

theorem query_told (sys : SysResults) (unfinished : Unfinished u m done) :
    Told u (handleClientMessage sys (MSG_FILE_QUERY :: writeU64BE u.id) m).1 done
      (handleClientMessage sys (MSG_FILE_QUERY :: writeU64BE u.id) m).2 := by
  obtain ⟨st, found, -⟩ := unfinished.1.session
  have long : 8 ≤ (writeU64BE u.id).length := (length_writeU64BE u.id).ge
  have addressed : readU64BE (writeU64BE u.id) = u.id := by
    have read := readU64BE_writeU64BE u.id []
    rw [List.append_nil] at read
    exact read
  exact asked_told unfinished found (.inl ⟨_, rfl, long, addressed⟩)

theorem fresh_creates {p : Bytes} (announced : checkStart p = .ok u.request) (fresh : Fresh u m) :
    handleClientMessage sys (MSG_FILE_START :: p) m =
      createSession sys u.request (replaced m u.id) := by
  have run := start_handled sys m p
  generalize handleClientMessage sys (MSG_FILE_START :: p) m = result at run ⊢
  cases run with
  | refused rejected plain =>
    obtain ⟨reply, refused⟩ := rejected
    rw [announced] at refused
    contradiction
  | resumed checked found same =>
    rw [announced] at checked
    obtain rfl := Except.ok.inj checked
    rw [fresh _ found] at same
    contradiction
  | created checked fresh =>
    rw [announced] at checked
    obtain rfl := Except.ok.inj checked
    rfl

theorem fresh_told {p : Bytes} (sound : Sound m) (fresh : Fresh u m)
    (announced : checkStart p = .ok u.request)
    (creates : Creates sys (replaced m u.id).disk) :
    Told u (handleClientMessage sys (MSG_FILE_START :: p) m).1 ∅
      (handleClientMessage sys (MSG_FILE_START :: p) m).2 := by
  have begun := (start_progress sound announced fresh creates).1
  have positive : 0 < u.request.total_chunks.toNat := by
    have first := List.length_pos_iff.mpr u.nonempty
    exact Nat.lt_of_le_of_lt (Nat.zero_le _) (Upload.chunk_of_byte first)
  obtain ⟨st, found, -⟩ := begun.session
  have marks := session_marks begun found
  refine ⟨⟨begun, 0, positive, by simp⟩, ?_⟩
  rw [fresh_creates announced fresh] at found ⊢
  have absent := replaced_absent m u.id
  unfold createSession at found ⊢
  split at found
  · rw [absent] at found
    contradiction
  · split at found
    · rw [absent] at found
      contradiction
    · rw [AList.lookup_insert] at found
      obtain rfl := Option.some.inj found
      exact ⟨_, rfl, marks⟩

theorem start_told {p : Bytes} (ready : Ready u m) (announced : checkStart p = .ok u.request)
    (creates : Fresh u m → Creates sys (replaced m u.id).disk) :
    ∃ done, Told u (handleClientMessage sys (MSG_FILE_START :: p) m).1 done
      (handleClientMessage sys (MSG_FILE_START :: p) m).2 := by
  rcases ready with ⟨sound, fresh | ⟨done, unfinished⟩⟩
  · exact ⟨∅, fresh_told sound fresh announced (creates fresh)⟩
  · obtain ⟨st, found, file_size, chunk_size, total, expected, -⟩ := unfinished.1.session
    have resumes : u.request.resumes st = true := by
      simp only [StartRequest.resumes, file_size, chunk_size, total, expected, beq_self_eq_true,
        Bool.and_self]
    exact ⟨done, asked_told unfinished found (.inr ⟨p, _, rfl, announced, rfl, resumes⟩)⟩

theorem chunk_refused (sys : SysResults) {i crc : UInt32} (progress : Progress u m done)
    (range : i < u.request.total_chunks) (wrong : CRC32.checksum (u.slice i) ≠ crc) :
    handleClientMessage sys (MSG_FILE_CHUNK :: (writeU64BE u.id ++ (writeU32BE i ++
        (writeU32BE crc ++ u.slice i)))) m =
      (m, [mkError .FILE_CHUNK_CRC_MISMATCH "chunk crc32 mismatch", chunkAck u.id i 0]) := by
  obtain ⟨st, found, -, chunk_size, total, -⟩ := progress.session
  have checked := message_checked found total chunk_size range crc
  rw [if_pos wrong] at checked
  have code : MSG_FILE_CHUNK ≠ MSG_FILE_START ∧ MSG_FILE_CHUNK ≠ MSG_FILE_QUERY := by decide
  simp only [handleClientMessage, code.1, code.2, handleFileChunk, checked, ↓reduceIte]

theorem chunk_told {i : UInt32} (progress : Progress u m done)
    (range : i < u.request.total_chunks) (missing : i.toNat ∉ done)
    (stores : Stores sys (u.slice i)) :
    let result := handleClientMessage sys (u.message i) m
    (Unfinished u result.1 (insert i.toNat done) ∧ result.2 = [chunkAck u.id i 1]) ∨
      ((∀ k < u.request.total_chunks.toNat, k ∈ insert i.toNat done) ∧ Completed u result.1 ∧
        result.2 = [chunkAck u.id i 1, finishAck u.id 1]) := by
  intro result
  obtain ⟨st, m₁, progress₁, found, run⟩ := chunk_recorded progress range stores
  have sound := (handleClientMessage_effect sys (u.message i) progress.sound).1
  simp only [missing, ↓reduceIte] at run
  have full := progress_count progress₁ found
  by_cases all : ∀ k < u.request.total_chunks.toNat, k ∈ insert i.toNat done
  · right
    obtain ⟨replies, ended, stored⟩ := finish_complete progress₁ found all stores
    have last := full.mpr all
    simp only [last, ↓reduceIte, replies] at run
    have shape : result = _ := run
    rw [shape]
    refine ⟨all, ⟨?_, ended, stored⟩, rfl⟩
    rw [run] at sound
    exact sound
  · left
    have going := mt full.mp all
    simp only [going, ↓reduceIte] at run
    have shape : result = _ := run
    rw [shape]
    push Not at all
    exact ⟨⟨progress₁, all⟩, rfl⟩

end

abbrev Conversation (σ : Type) := Dialogue.State σ Manager Bytes Bytes

section
variable {σ : Type}

def roles (react : σ → Bytes → σ × List Bytes) :
    Dialogue.Roles σ Manager Bytes Bytes SysResults Call where
  react := react
  serve := fun m sys payload => handleClientMessage sys payload m
  disturb := fun m call => (perform m call).1

/-- The system calls behind the upload's own messages succeed, and others leave it alone. -/
def Undisturbed (u : Upload) (s : Conversation σ) : Dialogue.Input SysResults Call → Prop
  | .serve sys =>
      (∀ p, s.requests.head? = some (MSG_FILE_START :: p) → Fresh u s.server →
        Creates sys (replaced s.server u.id).disk) ∧
      ∀ i < u.request.total_chunks, s.requests.head? = some (u.message i) → Stores sys (u.slice i)
  | .deliver => True
  | .disturb call => Elsewhere u.id s.server call

theorem willing_undisturbed {f : σ → Bytes → σ × List Bytes} {u : Upload} {s : Conversation σ}
    (is : List (Dialogue.Input SysResults Call))
    (only : ∀ i ∈ is, i = .serve willing ∨ i = .deliver) (short : u.data.length ≤ 2)
    (creates : Creates willing (replaced s.server u.id).disk)
    (once : ∀ t ∈ (Run.steps (Dialogue.step (roles f)) s is).tail,
      t.before.requests.head?.bind List.head? ≠ some MSG_FILE_START) :
    ∀ t ∈ Run.steps (Dialogue.step (roles f)) s is, Undisturbed u t.before t.input := by
  have stores (i : UInt32) : Stores willing (u.slice i) := by
    apply willing_stores
    rw [Upload.slice_length]
    omega
  have inputs := Run.steps_inputs (Dialogue.step (roles f)) s is
  intro t mem
  have listed : t.input ∈ is := by
    rw [← inputs]
    exact List.mem_map_of_mem mem
  rcases only _ listed with same | same
  · rw [same]
    refine ⟨?_, fun i _ _ => stores i⟩
    intro payload head _
    cases is with
    | nil => contradiction
    | cons i is =>
      rcases List.mem_cons.mp mem with rfl | later
      · exact creates
      · have other := once t later
        rw [head] at other
        contradiction
  · rw [same]
    trivial

theorem replaced_start (disk : FileSystem Bytes) (id : UInt64) :
    replaced (start disk) id = start disk := by
  unfold replaced start
  rw [AList.lookup_empty]

end

def todo (total : Nat) (done : Finset Nat) : List Nat := (List.range total).filter (· ∉ done)

theorem todo_empty {total : Nat} {done : Finset Nat} :
    todo total done = [] ↔ ∀ k < total, k ∈ done := by
  simp [todo]

theorem todo_length (total : Nat) (done : Finset Nat) : (todo total done).length ≤ total := by
  have all := List.length_filter_le (· ∉ done) (List.range total)
  rw [List.length_range] at all
  exact all

theorem todo_next {total i : Nat} {done : Finset Nat} {later : List Nat}
    (order : todo total done = i :: later) :
    i < total ∧ i ∉ done ∧ todo total (insert i done) = later := by
  have member : i ∈ todo total done := by
    rw [order]
    exact List.mem_cons_self
  have distinct : (todo total done).Nodup := List.nodup_range.filter _
  rw [order, List.nodup_cons] at distinct
  have split : todo total (insert i done) = (todo total done).filter (· ≠ i) := by
    rw [todo, todo, List.filter_filter]
    apply List.filter_congr
    intro k _
    simp [Bool.decide_and]
  simp only [todo, List.mem_filter, List.mem_range, decide_eq_true_eq] at member
  refine ⟨member.1, member.2, ?_⟩
  rw [split, order, List.filter_cons_of_neg (by simp), List.filter_eq_self]
  intro k mem
  simp only [decide_eq_true_eq]
  exact fun same => distinct.1 (same ▸ mem)

theorem unfinished_todo {u : Upload} {m : Manager} {done : Finset Nat}
    (unfinished : Unfinished u m done) :
    ∃ i later, todo u.request.total_chunks.toNat done = i :: later := by
  cases order : todo u.request.total_chunks.toNat done with
  | nil =>
    obtain ⟨i, range, missing⟩ := unfinished.2
    exact absurd (todo_empty.mp order i range) missing
  | cons i later => exact ⟨i, later, rfl⟩

theorem marks_missing {u : Upload} {bitmap : Bytes} {done : Finset Nat}
    (marks : Marks u bitmap done) {i : Nat} (range : i < u.request.total_chunks.toNat) :
    MainClient.bitmapMissing bitmap (UInt32.ofNat i) = decide (i ∉ done) ∧
      WebPage.bitmapMissing bitmap i = decide (i ∉ done) := by
  obtain ⟨index, below⟩ := index_below range
  have inside : (UInt32.ofNat i).toNat / 8 < bitmap.length := by
    rw [index, marks.1]
    omega
  obtain ⟨cli, web⟩ := clients_missing inside
  have marked := marks.2 _ below
  rw [index] at web marked
  have unmarked : (!bitmapGet bitmap (UInt32.ofNat i)) = decide (i ∉ done) := by
    rw [Bool.eq_iff_iff, Bool.not_eq_true', decide_eq_true_eq, ← marked, Bool.not_eq_true]
  rw [cli, web]
  exact ⟨unmarked, unmarked⟩

theorem next_told {u : Upload} {m : Manager} {done : Finset Nat} {i : Nat} {later : List Nat}
    {sys : SysResults} (unfinished : Unfinished u m done)
    (order : todo u.request.total_chunks.toNat done = i :: later)
    (stores : Stores sys (u.slice (UInt32.ofNat i))) :
    let result := handleClientMessage sys (u.message (UInt32.ofNat i)) m
    (∃ done', Unfinished u result.1 done' ∧ todo u.request.total_chunks.toNat done' = later ∧
        result.2 = [chunkAck u.id (UInt32.ofNat i) 1]) ∨
      (later = [] ∧ Completed u result.1 ∧
        result.2 = [chunkAck u.id (UInt32.ofNat i) 1, finishAck u.id 1]) := by
  obtain ⟨range, missing, rest⟩ := todo_next order
  obtain ⟨index, range'⟩ := index_below range
  have told := chunk_told unfinished.1 range' (by rw [index]; exact missing) stores
  rw [index] at told
  rcases told with ⟨unfinished', replies⟩ | ⟨all, completed, replies⟩
  · exact .inl ⟨_, unfinished', rest, replies⟩
  · right
    refine ⟨?_, completed, replies⟩
    rw [← rest]
    exact todo_empty.mpr all

/- Wherever it breaks off, the same upload may be begun again. -/
theorem unfinished_ready {u : Upload} {m : Manager} {done : Finset Nat}
    (unfinished : Unfinished u m done) : Ready u m :=
  ⟨unfinished.1.sound, .inr ⟨done, unfinished⟩⟩

theorem completed_ready {u : Upload} {m : Manager} (completed : Completed u m) : Ready u m := by
  refine ⟨completed.sound, .inl ?_⟩
  intro ex found
  rw [completed.ended] at found
  contradiction

end FileTransferManager
