import WebsocketServer.File.Ownership

/- How often the descriptor of a session is closed: once by whatever ends the session, never by
   anything else. -/
namespace FileTransferManager
open FileSystem

/-- The id still has a session, and it is the same upload. -/
def Survives (m : Manager) (id : UInt64) (st : FileState) : Prop :=
  ∃ st', m.g_states.lookup id = some st' ∧ st'.file_size = st.file_size ∧
    st'.chunk_size = st.chunk_size ∧ st'.total_chunks = st.total_chunks ∧
    st'.expected_crc32 = st.expected_crc32

def Fate (calls : List (Syscall Bytes)) (m : Manager) (id : UInt64) (st : FileState) (fd : Nat) :
    Prop :=
  (closes fd calls = 1 ∧ ¬ Survives m id st) ∨ (closes fd calls = 0 ∧ Survives m id st)

theorem closes_behind (fd : Nat) (o : Option Nat) (calls : List (Syscall Bytes)) :
    closes fd (closeCalls o ++ calls) = (if o = some fd then 1 else 0) + closes fd calls := by
  cases o with
  | none => simp [closeCalls]
  | some fd' => simp [closeCalls, closes]

/- A descriptor closed here is the one that open just returned. -/
theorem closes_create (fd : Nat) (sys : SysResults) (r : StartRequest) (disk : FileSystem Bytes) :
    closes fd (createCalls sys r disk) = 0 := by
  unfold createCalls
  split
  · rfl
  · rename_i fd' disk' opened
    unfold closes
    split
    · rfl
    · rename_i other
      split
      · simp [closes, other]
      · rfl

theorem closes_pwrite (fd : Nat) (sys : SysResults) (o : Option Nat) (data : Bytes)
    (offset : Int64) (calls : List (Syscall Bytes)) :
    closes fd (pwriteCalls sys o data offset ++ calls) = closes fd calls := by
  unfold pwriteCalls
  split
  · split <;> rfl
  · rfl

theorem closes_finish (fd : Nat) (sys : SysResults) (st : FileState) (disk : FileSystem Bytes) :
    ((∃ what, computeFdCrc32 sys disk st.fd = .error what) →
      closes fd (finishCalls sys st disk) = 0) ∧
      (∀ crc, computeFdCrc32 sys disk st.fd = .ok crc →
        closes fd (finishCalls sys st disk) = if st.fd = some fd then 1 else 0) := by
  unfold finishCalls
  constructor
  · rintro ⟨what, fails⟩
    rw [fails]
    rfl
  · intro crc done
    have quiet (renames unlinks passes : Bool) (old new : Bytes) :
        closes fd (if passes then if renames then [.rename old new] else []
          else if unlinks then [.unlink old] else []) = 0 := by
      cases passes <;> cases renames <;> cases unlinks <;> rfl
    have rest := quiet sys.renameOk sys.unlinkOk (crc = st.expected_crc32) st.temp_path
      (makeFinalPath st.file_id st.final_display_name)
    simp only [decide_eq_true_eq] at rest
    rw [done, closes_behind, rest, Nat.add_zero]

section
variable {m m' : Manager} {sys : SysResults} {id : UInt64} {st : FileState} {fd : Nat}

theorem same_survives (found : m.g_states.lookup id = some st) : Survives m id st :=
  ⟨st, found, rfl, rfl, rfl, rfl⟩

theorem other_fd (sound : Sound m) {a : UInt64} {sta : FileState}
    (here : m.g_states.lookup a = some sta) (found : m.g_states.lookup id = some st)
    (own : st.fd = some fd) (other : id ≠ a) : sta.fd ≠ some fd :=
  fun same => other (fd_unique sound found here own same)

theorem createSession_table (sys : SysResults) (r : StartRequest) (m : Manager) :
    (createSession sys r m).1.g_states = m.g_states ∨ ∃ new : FileState,
      (new.file_size = r.file_size ∧ new.chunk_size = r.chunk_size ∧
        new.total_chunks = r.total_chunks ∧ new.expected_crc32 = r.expected_crc32) ∧
      (createSession sys r m).1.g_states = m.g_states.insert r.file_id new := by
  have move := createSession_move sys r m
  generalize (createSession sys r m).1 = after at move
  cases move with
  | unopened => exact .inl rfl
  | untruncated => exact .inl rfl
  | @begun fd n st free own request => exact .inr ⟨st, request, rfl⟩

theorem begun_fate {p : Bytes} {r : StartRequest} (sound : Sound m)
    (checked : checkStart p = .ok r)
    (fresh : ∀ ex, m.g_states.lookup r.file_id = some ex → r.resumes ex = false)
    (table : m'.g_states = (replaced m r.file_id).g_states ∨ ∃ new : FileState,
      (new.file_size = r.file_size ∧ new.chunk_size = r.chunk_size ∧
        new.total_chunks = r.total_chunks ∧ new.expected_crc32 = r.expected_crc32) ∧
      m'.g_states = (replaced m r.file_id).g_states.insert r.file_id new)
    (found : m.g_states.lookup id = some st) (own : st.fd = some fd) :
    Fate (startCalls sys p m) m' id st fd := by
  by_cases same : id = r.file_id
  · subst same
    left
    have differs := fresh st found
    constructor
    · simp only [startCalls, checked, found, differs, Bool.false_eq_true, ↓reduceIte,
        closes_behind, own, closes_create, Nat.add_zero]
    · rintro ⟨st', found', size, chunk, total, crc⟩
      rcases table with kept | ⟨new, ⟨size', chunk', total', crc'⟩, added⟩
      · rw [kept, replaced_absent] at found'
        contradiction
      · rw [added, AList.lookup_insert] at found'
        obtain rfl := Option.some.inj found'
        rw [size'] at size
        rw [chunk'] at chunk
        rw [total'] at total
        rw [crc'] at crc
        simp [StartRequest.resumes, size, chunk, total, crc] at differs
  · right
    constructor
    · cases here : m.g_states.lookup r.file_id with
      | none => simp only [startCalls, checked, here, closes_create]
      | some ex =>
        simp only [startCalls, checked, here, fresh ex here, Bool.false_eq_true, ↓reduceIte,
          closes_behind, other_fd sound here found own same, closes_create, Nat.add_zero]
    · apply same_survives
      have kept : (replaced m r.file_id).g_states.lookup id = m.g_states.lookup id := by
        unfold replaced
        split
        · rfl
        · exact AList.lookup_erase_ne same
      rcases table with same' | ⟨new, _, added⟩
      · rw [same', kept, found]
      · rw [added, AList.lookup_insert_ne same, kept, found]

theorem chunkState_survives (sys : SysResults) {r : ChunkRequest}
    (found : m.g_states.lookup r.file_id = some (chunkState sys r)) :
    Survives m r.file_id r.st := by
  refine ⟨_, found, ?_⟩
  unfold chunkState
  split <;> exact ⟨rfl, rfl, rfl, rfl⟩

theorem stored_fate {p : Bytes} {r : ChunkRequest} (sound : Sound m)
    (checked : checkChunk m p = .ok r) (found : m.g_states.lookup id = some st)
    (own : st.fd = some fd) : Fate (chunkCalls sys p m) (storeChunk sys r m).1 id st fd := by
  have accepted := checkChunk_ok checked
  have same_fd : (chunkState sys r).fd = r.st.fd := by
    unfold chunkState
    split <;> rfl
  by_cases same : id = r.file_id
  · subst same
    obtain rfl : r.st = st := Option.some.inj (accepted.session.symm.trans found)
    have held : ({ m with disk := (pwriteAt sys m.disk r.st.fd r.chunkData
        (chunkOffset r.chunk_index r.st.chunk_size)).2 } : Manager).g_states.lookup r.file_id =
        some r.st := found
    have recorded := recordChunk_lookup sys held
    unfold Fate chunkCalls
    simp only [checked, closes_pwrite]
    rcases storeChunk_cases sys r m with
      ⟨partly, result⟩ | ⟨whole, open', result⟩ | ⟨whole, full, result⟩ <;> rw [result]
    · right
      rw [if_neg fun both => partly both.1]
      exact ⟨rfl, same_survives found⟩
    · right
      simp only [open', and_false, ↓reduceIte]
      exact ⟨rfl, chunkState_survives sys recorded⟩
    · simp only [whole, full, and_self, ↓reduceIte]
      obtain ⟨throws, ends⟩ := closes_finish fd sys (chunkState sys r) (pwriteAt sys m.disk r.st.fd
        r.chunkData (chunkOffset r.chunk_index r.st.chunk_size)).2
      have gone {disk : FileSystem Bytes} {table : AList fun _ : UInt64 => FileState} :
          ¬ Survives ⟨table.erase r.file_id, disk⟩ r.file_id r.st := by
        rintro ⟨st', found', _⟩
        simp only [AList.lookup_erase] at found'
        contradiction
      rcases finishUpload_cases sys r.file_id (chunkState sys r) (recordChunk sys r _) with
        ⟨what, fails, after⟩ | ⟨passes, after⟩ | ⟨crc, passes, _, after⟩ <;> rw [after]
      · exact .inr ⟨throws ⟨what, fails⟩, chunkState_survives sys recorded⟩
      · exact .inl ⟨by rw [ends _ passes, same_fd, own, if_pos rfl], gone⟩
      · exact .inl ⟨by rw [ends _ passes, same_fd, own, if_pos rfl], gone⟩
  · right
    have keeps := (storeChunk_effect sys sound accepted).2 id same
    refine ⟨?_, same_survives (keeps.session.trans found)⟩
    have other := other_fd sound accepted.session found own same
    unfold chunkCalls
    simp only [checked, closes_pwrite]
    split
    · obtain ⟨throws, ends⟩ := closes_finish fd sys (chunkState sys r) (pwriteAt sys m.disk r.st.fd
        r.chunkData (chunkOffset r.chunk_index r.st.chunk_size)).2
      cases crc : computeFdCrc32 sys (pwriteAt sys m.disk r.st.fd r.chunkData
        (chunkOffset r.chunk_index r.st.chunk_size)).2 (chunkState sys r).fd with
      | error what => exact throws ⟨what, crc⟩
      | ok value => rw [ends value crc, same_fd, if_neg other]
    · rfl

theorem removals_spare {unlinkOk : UInt64 → Bool} {ids : List UInt64}
    (free : ∀ id st, m.g_states.lookup id = some st → st.fd ≠ some fd) :
    closes fd (removeCalls unlinkOk m ids) = 0 := by
  induction ids generalizing m with
  | nil => rfl
  | cons id ids ih =>
    have later : closes fd (removeCalls unlinkOk (removeSession unlinkOk m id) ids) = 0 := by
      apply ih
      intro other st found
      cases here : m.g_states.lookup id with
      | none =>
        rw [removeSession_none unlinkOk here] at found
        exact free other st found
      | some st' =>
        rw [removeSession_some unlinkOk here] at found
        by_cases same : other = id
        · rw [same, AList.lookup_erase] at found
          contradiction
        · exact free other st ((AList.lookup_erase_ne same).symm.trans found)
    rw [removeCalls_cons]
    cases here : m.g_states.lookup id with
    | none =>
      simp only [removal, here]
      exact later
    | some st' =>
      rw [removal_some unlinkOk here, List.append_assoc, closes_behind, if_neg (free id st' here)]
      cases unlinkOk id <;> exact (Nat.zero_add _).trans later

theorem removals_fate {unlinkOk : UInt64 → Bool} {ids : List UInt64} (sound : Sound m)
    (found : m.g_states.lookup id = some st) (own : st.fd = some fd) :
    Fate (removeCalls unlinkOk m ids) (ids.foldl (removeSession unlinkOk) m) id st fd := by
  induction ids generalizing m with
  | nil => exact .inr ⟨rfl, same_survives found⟩
  | cons first ids ih =>
    have effect := removeSession_effect unlinkOk first sound
    rw [List.foldl_cons]
    by_cases same : id = first
    · subst same
      have gone := removeSession_gone unlinkOk m id
      have rest : closes fd (removeCalls unlinkOk (removeSession unlinkOk m id) ids) = 0 := by
        apply removals_spare
        intro other st' here same
        have apart : other ≠ id := by
          rintro rfl
          rw [gone] at here
          contradiction
        exact apart
          (fd_unique sound ((effect.2 other apart).session.symm.trans here) found same own)
      left
      constructor
      · rw [removeCalls_cons, removal_some unlinkOk found, List.append_assoc, closes_behind,
          if_pos own]
        cases unlinkOk id <;> exact congrArg (1 + ·) rest
      · rintro ⟨st', here, _⟩
        have ended := (removeSessions unlinkOk ids effect.1).2 id
        by_cases again : id ∈ ids
        · rw [ended.1 again] at here
          contradiction
        · rw [(ended.2 again).session, gone] at here
          contradiction
    · have later := ih effect.1 ((effect.2 id same).session.trans found)
      have quiet : closes fd (removeCalls unlinkOk m (first :: ids)) =
          closes fd (removeCalls unlinkOk (removeSession unlinkOk m first) ids) := by
        rw [removeCalls_cons]
        cases here : m.g_states.lookup first with
        | none =>
          simp only [removal, here]
          rfl
        | some st' =>
          rw [removal_some unlinkOk here, List.append_assoc, closes_behind,
            if_neg (other_fd sound here found own same)]
          cases unlinkOk first <;> exact Nat.zero_add _
      unfold Fate
      rw [quiet]
      exact later

theorem touched_survives {other : UInt64} {ex : FileState}
    (here : m.g_states.lookup other = some ex) (now_seconds : UInt64)
    (found : m.g_states.lookup id = some st) : Survives (touch m other ex now_seconds) id st := by
  by_cases same : id = other
  · subst same
    obtain rfl := Option.some.inj (found.symm.trans here)
    exact ⟨_, AList.lookup_insert _, rfl, rfl, rfl, rfl⟩
  · exact same_survives ((AList.lookup_insert_ne same).trans found)

theorem message_fate {payload : Bytes} (sound : Sound m)
    (found : m.g_states.lookup id = some st) (own : st.fd = some fd) :
    Fate (messageCalls sys payload m) (handleClientMessage sys payload m).1 id st fd := by
  have quiet : Fate [] m id st fd := .inr ⟨rfl, same_survives found⟩
  have touched {other : UInt64} {ex : FileState} (here : m.g_states.lookup other = some ex)
      (now_seconds : UInt64) : Fate [] (touch m other ex now_seconds) id st fd :=
    .inr ⟨rfl, touched_survives here now_seconds found⟩
  cases payload with
  | nil => exact quiet
  | cons msgType p =>
    simp only [messageCalls, handleClientMessage]
    split
    · cases checked : checkStart p with
      | error reply =>
        simp only [startCalls, handleFileStart, checked]
        exact quiet
      | ok r =>
        cases here : m.g_states.lookup r.file_id with
        | none =>
          have fresh : ∀ ex, m.g_states.lookup r.file_id = some ex → r.resumes ex = false := by
            intro ex found'
            rw [here] at found'
            contradiction
          apply begun_fate sound checked fresh _ found own
          simp only [handleFileStart, checked, here, replaced]
          exact createSession_table sys r m
        | some ex =>
          by_cases resumes : r.resumes ex = true
          · simp only [startCalls, handleFileStart, checked, here, resumes, ↓reduceIte]
            exact touched here _
          · have fresh : ∀ ex, m.g_states.lookup r.file_id = some ex → r.resumes ex = false := by
              intro ex' found'
              rw [here] at found'
              obtain rfl := Option.some.inj found'
              simpa using resumes
            apply begun_fate sound checked fresh _ found own
            simp only [handleFileStart, checked, here, resumes, replaced]
            exact createSession_table sys r (dropSession m r.file_id ex)
    · split
      · unfold handleFileQuery
        cases checked : checkQuery m p with
        | error reply => exact quiet
        | ok r => exact touched (checkQuery_ok checked).2.2 _
      · split
        · unfold handleFileChunk
          cases checked : checkChunk m p with
          | error replies =>
            simp only [chunkCalls, checked]
            exact quiet
          | ok r => exact stored_fate sound checked found own
        · exact quiet

theorem step_sound (sound : Sound m) (e : Event) : Sound (step m e).1 := event_sound sound e

theorem step_owned {disk₀ : FileSystem Bytes} {e : Event} (sound : Sound m)
    (owned : Owned disk₀ m) (avoids : ¬ Leaks disk₀ m e) : Owned disk₀ (step m e).1 := by
  cases e with
  | call c =>
    cases c with
    | message sys payload => exact message_owned sound owned avoids
    | cleanup order unlinkOk now_seconds ttl_seconds max_sessions =>
      simp only [step, Event.happens, perform, cleanupSessions_removes]
      apply removals_owned sound owned
      intro id listed fails ours
      exact avoids (.removed listed fails ours)
  | noMemory sys p =>
    simp only [step, Event.happens]
    rcases startWithoutMemory_cases sys p m with
      ⟨_, same⟩ | ⟨id, ex, _, found, touched⟩ | ⟨r, begins, begun⟩
    · rw [same]
      exact owned
    · rw [touched]
      exact owned_same owned rfl rfl (touch_same found _)
    · have move : CreateMove sys r (replaced m r.file_id)
          (createWithoutMemory sys r (replaced m r.file_id)).1 := by
        apply createWithoutMemory_move
        intro opened
        by_contra sized
        exact avoids (.noMemory begins opened sized)
      rw [begun]
      exact begun_owned sound owned begins avoids move
  | noReply sys payload =>
    simp only [step, Event.happens]
    rcases messageWithoutReply_state sys payload m with served | ⟨_, _, _, _, still⟩
    · rw [served]
      exact message_owned sound owned fun leaks => avoids (.noReply leaks)
    · rw [still]
      exact owned

theorem step_fate (sound : Sound m) (e : Event) (found : m.g_states.lookup id = some st)
    (own : st.fd = some fd) : Fate (step m e).2 (step m e).1 id st fd := by
  cases e with
  | call c =>
    cases c with
    | message sys payload => exact message_fate sound found own
    | cleanup order unlinkOk now_seconds ttl_seconds max_sessions =>
      rw [cleanup_syscalls]
      simp only [step, Event.happens, perform, cleanupSessions_removes]
      exact removals_fate sound found own
  | noMemory sys p =>
    simp only [step, Event.happens, Event.syscalls]
    rcases startWithoutMemory_cases sys p m with
      ⟨quiet, same⟩ | ⟨other, ex, quiet, here, touched⟩ | ⟨r, ⟨p', checked, fresh, event⟩, begun⟩
    · rw [quiet, same]
      exact .inr ⟨rfl, same_survives found⟩
    · rw [quiet, touched]
      exact .inr ⟨rfl, touched_survives here _ found⟩
    · obtain rfl : p = p' := by simpa using event
      rw [begun]
      exact begun_fate sound checked fresh (.inl (createWithoutMemory_table sys r _)) found own
  | noReply sys payload =>
    have fate : Fate (messageCalls sys payload m) (handleClientMessage sys payload m).1 id st fd :=
      message_fate sound found own
    simp only [step, Event.happens, Event.syscalls]
    rcases messageWithoutReply_state sys payload m with served | ⟨_, _, here, touched, still⟩
    · rw [served]
      exact fate
    · rw [touched] at fate
      have alive := touched_survives here sys.now_seconds found
      rw [still]
      rcases fate with ⟨_, ended⟩ | ⟨never, _⟩
      · exact absurd alive ended
      · exact .inr ⟨never, same_survives found⟩

theorem start_owned (disk : FileSystem Bytes) : Owned disk (start disk) := by
  refine ⟨⟨?_, fun _ _ used => used, ?_⟩, ?_⟩
  · intro fd i used free
    rw [start, free] at used
    contradiction
  · intro id st fd found
    contradiction
  · intro id i named created
    exact absurd (disk.named named) (not_lt.mpr created)

end

/-- No upload leaves a file or a descriptor behind in a run without the exits of `Leaks`; and in
    every run a descriptor is closed once when its session ends, and not before. -/
theorem uploads_owned (disk₀ : FileSystem Bytes) (events : List Event) :
    ((∀ t ∈ Run.steps step (start disk₀) events, ¬ Leaks disk₀ t.before t.input) →
      ∀ t ∈ Run.steps step (start disk₀) events, NoLeaks disk₀ t.after) ∧
    ∀ t ∈ Run.steps step (start disk₀) events, ∀ id st fd,
      t.before.g_states.lookup id = some st → st.fd = some fd →
        (¬ Survives t.after id st → closes fd t.output = 1) ∧
        (Survives t.after id st → closes fd t.output = 0) := by
  have free : ∀ t ∈ Run.steps step (start disk₀) events, True := fun _ _ => trivial
  have sound := (Run.invariant_steps Sound (fun _ _ => True)
    (fun m e sound _ => step_sound sound e) (start_sound disk₀) free).1
  constructor
  · intro avoids t mem
    have both := (Run.invariant_steps (fun m => Sound m ∧ Owned disk₀ m)
      (fun m e => ¬ Leaks disk₀ m e)
      (fun m e holds avoid => ⟨step_sound holds.1 e, step_owned holds.1 holds.2 avoid⟩)
      ⟨start_sound disk₀, start_owned disk₀⟩ avoids).1 t mem
    rw [(Run.steps_taken step mem).1]
    exact owned_noLeaks (step_sound both.1 t.input)
      (step_owned both.1 both.2 (avoids t mem))
  · intro t mem id st fd found own
    obtain ⟨after, output⟩ := Run.steps_taken step mem
    have fate := step_fate (sound t mem) t.input found own
    rw [← after, ← output] at fate
    rcases fate with ⟨once, ended⟩ | ⟨never, alive⟩
    · exact ⟨fun _ => once, fun alive => absurd alive ended⟩
    · exact ⟨fun ended => absurd alive ended, fun _ => never⟩

/-- A declared size that off_t cannot hold: ftruncate fails and the file stays. -/
theorem failed_start_leaks :
    ¬ ∀ (disk₀ : FileSystem Bytes) (events : List Event),
      ∀ t ∈ Run.steps step (start disk₀) events, NoLeaks disk₀ t.after := by
  intro claimed
  have clean := claimed .empty [.call (.message willing impossibleStart)]
  simp only [Run.steps, List.forall_mem_cons] at clean
  have live := clean.1.files 7 0 (by decide +kernel) (by decide +kernel)
  exact absurd live (by decide +kernel)

end FileTransferManager
