import WebsocketServer.File.Upload

/- FILE_FINISH_ACK with ok=1 vouches for the finished file as long as no accepted chunk reaches
   past the declared size and rename does not fail. -/
namespace FileTransferManager
open FileSystem

def acceptedChunk (m : Manager) (payload : Bytes) : Option ChunkRequest :=
  if payload.head? = some MSG_FILE_CHUNK then (checkChunk m payload.tail).toOption else none

/-- The chunk lies inside the file its session was announced with. -/
def InDeclared (r : ChunkRequest) : Prop :=
  r.chunk_index.toNat * r.st.chunk_size.toNat + r.chunkData.length ≤ r.st.file_size.toNat

instance (r : ChunkRequest) : Decidable (InDeclared r) := inferInstanceAs (Decidable (_ ≤ _))

def Truthful (m : Manager) : Call → Prop
  | .message sys payload => ∀ r ∈ acceptedChunk m payload, InDeclared r ∧ sys.renameOk = true
  | .cleanup .. => True

/-- What the acknowledgement says: the finished file is there and is what was declared. -/
def FinishTruth (t : Run.Taken Manager Call (List Bytes)) : Prop :=
  ∀ id, finishAck id 1 ∈ t.output →
    ∃ st b, t.before.g_states.lookup id = some st ∧
      t.after.disk.read (makeFinalPath id st.final_display_name) = some b ∧
      b.length = st.file_size.toNat ∧ CRC32.checksum b = st.expected_crc32

/-- The temporary file has the declared length. -/
def Sized (disk : FileSystem Bytes) (id : UInt64) (st : FileState) : Prop :=
  st.file_size.toNat < 2 ^ 63 ∧
    ∃ b, disk.read (makeTempPath id) = some b ∧ b.length = st.file_size.toNat

def AllSized (m : Manager) : Prop :=
  ∀ id st, m.g_states.lookup id = some st → Sized m.disk id st

theorem sized_kept {id : UInt64} {m m' : Manager} (keeps : Keeps id m m')
    (sized : ∀ st, m.g_states.lookup id = some st → Sized m.disk id st) :
    ∀ st, m'.g_states.lookup id = some st → Sized m'.disk id st := by
  intro st found
  rw [keeps.session] at found
  obtain ⟨small, b, bytes, length⟩ := sized st found
  exact ⟨small, b, by rw [keeps.disk.bytes _ (.inl rfl), bytes], length⟩

theorem sized_local {id : UInt64} {m m' : Manager} (sized : AllSized m) (effect : Local id m m')
    (here : ∀ st, m'.g_states.lookup id = some st → Sized m'.disk id st) : AllSized m' := by
  intro other
  by_cases same : other = id
  · subst same
    exact here
  · exact sized_kept (effect other same) (sized other)

theorem off_t_nonneg {x : UInt64} (nonnegative : 0 ≤ x.toInt64.toInt) : x.toNat < 2 ^ 63 := by
  have word := x.toNat_lt
  rw [← Int64.toInt_toBitVec, UInt64.toBitVec_toInt64, BitVec.toInt_eq_toNat_cond,
    UInt64.toNat_toBitVec] at nonnegative
  split at nonnegative
  · omega
  · omega

/- What a write leaves behind: the bytes up to some point of the data. -/
theorem pwriteAt_read (sys : SysResults) {disk : FileSystem Bytes} {fd : Nat} {path b : Bytes}
    (data : Bytes) (offset : Int64) (opened : disk.Opened fd path)
    (bytes : disk.read path = some b) :
    ∃ n, (pwriteAt sys disk (some fd) data offset).2.read path =
      some (overwrite offset.toInt.toNat (data.take n) b) := by
  have unchanged : disk.read path = some (overwrite offset.toInt.toNat (data.take 0) b) := by
    rw [bytes]
    rfl
  simp only [pwriteAt]
  cases sys.pwriteCount with
  | none => exact ⟨0, unchanged⟩
  | some n =>
    simp only
    split
    · exact ⟨0, unchanged⟩
    · refine ⟨n, ?_⟩
      simp only [pwrite]
      rw [modify_read _ opened, if_pos rfl, bytes, Option.map_some]

theorem write_sized {m : Manager} {r : ChunkRequest} (sys : SysResults) (sound : Sound m)
    (found : m.g_states.lookup r.file_id = some r.st) (sized : Sized m.disk r.file_id r.st)
    (inside : InDeclared r) :
    Sized (pwriteAt sys m.disk r.st.fd r.chunkData
      (chunkOffset r.chunk_index r.st.chunk_size)).2 r.file_id r.st := by
  obtain ⟨small, b, bytes, length⟩ := sized
  obtain ⟨fd, here, opened⟩ := (sound _ _ found).opened
  obtain ⟨n, after⟩ := pwriteAt_read sys r.chunkData
    (chunkOffset r.chunk_index r.st.chunk_size) opened bytes
  unfold InDeclared at inside
  have offset := chunkOffset_toInt
    (show r.chunk_index.toNat * r.st.chunk_size.toNat < 2 ^ 63 by omega)
  rw [offset, Int.toNat_natCast] at after
  refine ⟨small, _, by rw [here]; exact after, ?_⟩
  have cut : (r.chunkData.take n).length ≤ r.chunkData.length := List.length_take_le' n _
  rw [length_overwrite (by omega), length]

theorem touched_sized {m : Manager} {id : UInt64} {st : FileState} {now_seconds : UInt64}
    (sized : Sized m.disk id st) :
    ∀ st', (touch m id st now_seconds).g_states.lookup id = some st' →
      Sized (touch m id st now_seconds).disk id st' := by
  intro st' found
  simp only [touch, AList.lookup_insert, Option.some.injEq] at found
  subst found
  exact sized

theorem recorded_sized {m : Manager} {r : ChunkRequest} (sys : SysResults)
    (found : m.g_states.lookup r.file_id = some r.st)
    (sized : Sized m.disk r.file_id r.st) :
    ∀ st, (recordChunk sys r m).g_states.lookup r.file_id = some st →
      Sized (recordChunk sys r m).disk r.file_id st := by
  intro st found'
  rw [recordChunk_lookup sys found] at found'
  injection found' with same
  subst same
  unfold chunkState
  split
  · exact sized
  · exact sized

theorem erased_sized {m : Manager} {id : UInt64} {disk : FileSystem Bytes} :
    ∀ st, (⟨m.g_states.erase id, disk⟩ : Manager).g_states.lookup id = some st →
      Sized disk id st := by
  intro st found
  simp only [AList.lookup_erase] at found
  contradiction

theorem finishUpload_sized {m : Manager} {sys : SysResults} {id : UInt64} {st : FileState}
    (sized : ∀ st, m.g_states.lookup id = some st → Sized m.disk id st) :
    ∀ st', (finishUpload sys id st m).1.g_states.lookup id = some st' →
      Sized (finishUpload sys id st m).1.disk id st' := by
  rcases finishUpload_cases sys id st m with ⟨what, _, result⟩ | ⟨_, result⟩ | ⟨_, _, _, result⟩ <;>
    rw [result]
  · exact sized
  · exact erased_sized
  · exact erased_sized

theorem replaced_absent (m : Manager) (id : UInt64) :
    (replaced m id).g_states.lookup id = none := by
  unfold replaced
  split
  · assumption
  · exact AList.lookup_erase _ _

theorem created_sized {m : Manager} {sys : SysResults} {r : StartRequest}
    (absent : m.g_states.lookup r.file_id = none) :
    ∀ st, (createSession sys r m).1.g_states.lookup r.file_id = some st →
      Sized (createSession sys r m).1.disk r.file_id st := by
  rcases createSession_cases sys r m with ⟨_, result⟩ |
    ⟨fd, _, _, ⟨_, result⟩ | ⟨nonneg, result⟩⟩ <;>
    rw [result]
  · intro st found
    rw [absent] at found
    contradiction
  · intro st found
    rw [absent] at found
    contradiction
  · intro st found
    simp only [AList.lookup_insert, Option.some.injEq] at found
    subst found
    have small := off_t_nonneg nonneg
    refine ⟨small, resize r.file_size.toInt64.toInt.toNat [], ?_, ?_⟩
    · simp only [ftruncate]
      rw [modify_read _ open_opened, if_pos rfl, open_read, if_pos rfl, Option.map_some]
    · rw [length_resize, off_t_small small, Int.toNat_natCast]
      rfl

theorem message_sized {m : Manager} {sys : SysResults} {payload : Bytes} (sound : Sound m)
    (sized : AllSized m) (truthful : Truthful m (.message sys payload)) :
    AllSized (handleClientMessage sys payload m).1 := by
  have effect := (handleClientMessage_effect sys payload sound).2
  have all := handled sys payload m
  generalize handleClientMessage sys payload m = outcome at effect all
  cases all with
  | refused => exact sized
  | @resumed p r ex checked found =>
    obtain ⟨_, id, _⟩ := checkStart_ok checked
    rw [List.tail_cons, ← id] at effect
    exact sized_local sized effect (touched_sized (sized _ _ found))
  | @queried p r checked =>
    obtain ⟨_, id, found⟩ := checkQuery_ok checked
    rw [List.tail_cons, ← id] at effect
    exact sized_local sized effect (touched_sized (sized _ _ found))
  | @created p r checked =>
    obtain ⟨_, id, _⟩ := checkStart_ok checked
    rw [List.tail_cons, ← id] at effect
    exact sized_local sized effect (created_sized (replaced_absent m r.file_id))
  | @stored p r checked =>
    have accepted := checkChunk_ok checked
    have inside : InDeclared r := (truthful r (by
      simp only [acceptedChunk, List.head?_cons, ↓reduceIte, List.tail_cons, checked]; rfl)).1
    have written := write_sized sys sound accepted.session (sized _ _ accepted.session)
      inside
    rw [List.tail_cons, ← accepted.id] at effect
    refine sized_local sized effect ?_
    rcases storeChunk_cases sys r m with ⟨_, result⟩ | ⟨_, _, result⟩ | ⟨_, _, result⟩ <;>
      rw [result]
    · intro st found
      rw [accepted.session] at found
      injection found with same
      exact same ▸ written
    · exact recorded_sized (m := { m with disk := _ }) sys accepted.session written
    · exact finishUpload_sized
        (recorded_sized (m := { m with disk := _ }) sys accepted.session written)

theorem perform_sized {m : Manager} (call : Call) (sound : Sound m) (sized : AllSized m)
    (truthful : Truthful m call) : AllSized (perform m call).1 := by
  cases call with
  | message sys payload => exact message_sized sound sized truthful
  | cleanup order unlinkOk now_seconds ttl_seconds max_sessions =>
    intro id st found
    simp only [perform] at found
    have remains : (cleanupSessions order unlinkOk now_seconds ttl_seconds max_sessions
        m).g_states.lookup id ≠ none := by
      rw [found]
      exact Option.some_ne_none st
    exact sized_kept (cleanupSessions_keeps sound remains) (sized id) st found

theorem readLoop_ok {results : List ReadResult} {crc value : UInt32} {rest : Bytes}
    (done : readLoop results crc rest = .ok value) : value = CRC32.update crc rest := by
  induction results generalizing crc rest with
  | nil =>
    injection done with done
    exact done.symm
  | cons result results ih =>
    cases result with
    | interrupted => exact ih done
    | failed => contradiction
    | upTo n =>
      simp only [readLoop] at done
      split at done
      · rename_i empty
        injection done with done
        rw [empty, ← done]
        rfl
      · rw [ih done, ← CRC32.update_append, List.take_append_drop]

/- However read cuts the file, the loop computes the checksum of all of it. -/
theorem computeFdCrc32_ok {sys : SysResults} {disk : FileSystem Bytes} {fd : Nat} {b : Bytes}
    {value : UInt32} (bytes : disk.readFd fd = some b)
    (done : computeFdCrc32 sys disk (some fd) = .ok value) : value = CRC32.checksum b := by
  simp only [computeFdCrc32, bytes] at done
  split at done
  · rename_i same
    injection same with same
    subst same
    cases loop : readLoop sys.reads CRC32.reset b with
    | error what =>
      rw [loop] at done
      contradiction
    | ok crc =>
      rw [loop] at done
      injection done with done
      rw [← done, readLoop_ok loop]
      rfl
  · contradiction

theorem chunkState_declared (sys : SysResults) (r : ChunkRequest) :
    (chunkState sys r).file_size = r.st.file_size ∧
      (chunkState sys r).expected_crc32 = r.st.expected_crc32 ∧
      (chunkState sys r).final_display_name = r.st.final_display_name := by
  unfold chunkState
  split <;> exact ⟨rfl, rfl, rfl⟩

theorem finishUpload_truth {m : Manager} {sys : SysResults} {id : UInt64} {st : FileState}
    (sound : Sound m) (found : m.g_states.lookup id = some st) (sized : Sized m.disk id st)
    (renames : sys.renameOk = true) (mem : finishAck id 1 ∈ (finishUpload sys id st m).2) :
    ∃ b, (finishUpload sys id st m).1.disk.read (makeFinalPath id st.final_display_name) = some b ∧
      b.length = st.file_size.toNat ∧ CRC32.checksum b = st.expected_crc32 := by
  have session := sound _ _ found
  obtain ⟨fd, here, opened⟩ := session.opened
  obtain ⟨_, b, bytes, length⟩ := sized
  rcases finishUpload_cases sys id st m with ⟨what, _, result⟩ | ⟨crc, result⟩ |
    ⟨_, _, _, result⟩ <;>
    rw [result] at mem
  · have head := congrArg List.head? (List.mem_singleton.mp mem)
    exact absurd (Option.some.inj head) (by decide)
  · rw [here] at crc
    have value := computeFdCrc32_ok (by rw [← opened_read opened, bytes]) crc
    have still : (m.disk.close fd).read (makeTempPath id) = some b := bytes
    refine ⟨b, ?_, length, value.symm⟩
    rw [result, here, session.path, session.own]
    simp only [renames, ↓reduceIte, closeFd]
    rw [rename_read still, if_pos rfl]
  · have same := List.mem_singleton.mp mem
    simp [finishAck] at same

theorem message_truth {m : Manager} {sys : SysResults} {payload : Bytes} (sound : Sound m)
    (sized : AllSized m) (truthful : Truthful m (.message sys payload)) :
    FinishTruth ⟨m, .message sys payload, (handleClientMessage sys payload m).1,
      (handleClientMessage sys payload m).2⟩ := by
  intro id mem
  obtain ⟨p, r, rfl, checked, rfl, run⟩ := finishAck_stored mem ⟨1, rfl⟩
  have accepted := checkChunk_ok checked
  obtain ⟨inside, renames⟩ := truthful r (by
    simp only [acceptedChunk, List.head?_cons, ↓reduceIte, List.tail_cons, checked]; rfl)
  have written := write_sized sys sound accepted.session (sized _ _ accepted.session)
    inside
  have effect := write_effect sys sound accepted.session r.chunkData
    (chunkOffset r.chunk_index r.st.chunk_size)
  simp only [run] at mem ⊢
  rcases storeChunk_cases sys r m with ⟨_, result⟩ | ⟨_, _, result⟩ | ⟨_, _, result⟩ <;>
    rw [result] at mem
  · have head := congrArg List.head? (List.mem_singleton.mp mem)
    exact absurd (Option.some.inj head) (by decide)
  · have head := congrArg List.head? (List.mem_singleton.mp mem)
    exact absurd (Option.some.inj head) (by decide)
  · rcases List.mem_cons.mp mem with ack | finish
    · have head := congrArg List.head? ack
      exact absurd (Option.some.inj head) (by decide)
    · have recorded := recordChunk_effect sys effect.1 accepted.session accepted.range
      have found : (recordChunk sys r { m with disk := (pwriteAt sys m.disk r.st.fd r.chunkData
          (chunkOffset r.chunk_index r.st.chunk_size)).2 }).g_states.lookup r.file_id =
            some (chunkState sys r) := recordChunk_lookup sys accepted.session
      have last := recorded_sized (m := { m with disk := (pwriteAt sys m.disk r.st.fd r.chunkData
        (chunkOffset r.chunk_index r.st.chunk_size)).2 }) sys accepted.session written _ found
      obtain ⟨b, bytes, length, crc⟩ := finishUpload_truth recorded.1 found last renames finish
      obtain ⟨file_size, expected, name⟩ := chunkState_declared sys r
      rw [result]
      exact ⟨r.st, b, accepted.session, by rw [← name]; exact bytes, by rw [length, file_size],
        by rw [crc, expected]⟩

theorem perform_truth {m : Manager} (call : Call) (sound : Sound m) (sized : AllSized m)
    (truthful : Truthful m call) :
    FinishTruth ⟨m, call, (perform m call).1, (perform m call).2⟩ := by
  cases call with
  | message sys payload => exact message_truth sound sized truthful
  | cleanup =>
    intro id mem
    simp [perform] at mem

/-- In every run whose accepted chunks lie inside their files and whose renames succeed, an
    acknowledgement with ok=1 tells the truth. -/
theorem finish_ack_truth (disk : FileSystem Bytes) (calls : List Call)
    (truthful : ∀ t ∈ Run.steps perform (start disk) calls, Truthful t.before t.input) :
    ∀ t ∈ Run.steps perform (start disk) calls, FinishTruth t := by
  have begins : Sound (start disk) ∧ AllSized (start disk) := by
    refine ⟨start_sound disk, ?_⟩
    intro id st found
    simp only [start, AList.lookup_empty] at found
    contradiction
  have invariant := (Run.invariant_steps (fun m => Sound m ∧ AllSized m) Truthful
    (fun m call holds allowed =>
      ⟨perform_sound call holds.1, perform_sized call holds.1 holds.2 allowed⟩)
    begins truthful).1
  intro t mem
  obtain ⟨after, output⟩ := Run.steps_taken perform mem
  obtain ⟨sound, sized⟩ := invariant t mem
  have truth := perform_truth t.input sound sized (truthful t mem)
  rw [← after, ← output] at truth
  exact truth

def oversizedCalls : List Call :=
  [.message willing (startPayload 7 1 1 1 (CRC32.checksum [1, 2]) []),
    .message willing (chunkPayload 7 0 [1, 2])]

theorem oversized_chunk_acknowledged :
    ¬ ∀ (disk : FileSystem Bytes) (calls : List Call),
      ∀ t ∈ Run.steps perform (start disk) calls, FinishTruth t := by
  intro claimed
  have truth := claimed .empty oversizedCalls
  simp only [oversizedCalls, Run.steps, List.forall_mem_cons] at truth
  generalize begun : (perform (start .empty) (.message willing
    (startPayload 7 1 1 1 (CRC32.checksum [1, 2]) []))).1 = m at truth
  have declared : (m.g_states.lookup 7).map (fun st => (st.file_size, st.final_display_name)) =
      some (1, []) := by
    rw [← begun]
    decide +kernel
  have acknowledged :
      finishAck 7 1 ∈ (perform m (.message willing (chunkPayload 7 0 [1, 2]))).2 := by
    rw [← begun]
    decide +kernel
  have file : (perform m (.message willing (chunkPayload 7 0 [1, 2]))).1.disk.read
      (makeFinalPath 7 []) = some [1, 2] := by
    rw [← begun]
    decide +kernel
  obtain ⟨st, b, found, bytes, length, _⟩ := truth.2.1 7 acknowledged
  rw [found] at declared
  simp only [Option.map_some, Option.some.injEq, Prod.mk.injEq] at declared
  simp only [declared.2, file, Option.some.injEq] at bytes
  rw [← bytes, declared.1] at length
  exact absurd length (by decide)

/- The same upload with the byte it declares: the step that takes the chunk. -/
theorem exact_chunk_truthful :
    let begin := Call.message willing (startPayload 7 1 1 1 (CRC32.checksum [1]) [])
    let last := Call.message willing (chunkPayload 7 0 [1])
    let m := (perform (start .empty) begin).1
    FinishTruth ⟨m, last, (perform m last).1, (perform m last).2⟩ := by
  intro begin last m
  apply finish_ack_truth .empty [begin, last]
  · simp only [Run.steps, List.forall_mem_cons, begin, last, Truthful]
    refine ⟨?_, ?_, by simp⟩
    · decide +kernel
    · decide +kernel
  · exact List.mem_cons_of_mem _ List.mem_cons_self

end FileTransferManager
