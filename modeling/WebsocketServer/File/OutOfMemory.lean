import WebsocketServer.File.FinishAck

/- Messages that run out of memory. What a client chooses the size of is the bitmap: a FILE_START
   makes one once its file is open, and a reply holds a copy of one. What was done before the
   exception stays done, and the handler at the end only replies. -/
namespace FileTransferManager
open FileSystem

def IsFileError (reply : Bytes) : Prop := reply.head? = some MSG_FILE_ERROR

instance (reply : Bytes) : Decidable (IsFileError reply) := inferInstanceAs (Decidable (_ = _))

def badAlloc : Bytes := mkError .INTERNAL_ERROR "std::bad_alloc"

/-- A call of the manager, a FILE_START without memory for its bitmap, or a message without memory
    for the bitmap in its reply. -/
inductive Event where
  | call (call : Call)
  | noMemory (sys : SysResults) (p : Bytes)
  | noReply (sys : SysResults) (payload : Bytes)

/-- bitmap.assign or emplace throws. -/
def createWithoutMemory (sys : SysResults) (r : StartRequest) (m : Manager) :
    Manager × List Bytes :=
  match openTemp sys m.disk (makeTempPath r.file_id) with
  | none => (m, [mkError .INTERNAL_ERROR "open temp file failed"])
  | some (fd, disk) =>
      match truncateTo sys disk fd r.file_size.toInt64 with
      | none => ({ m with disk := disk.close fd }, [mkError .INTERNAL_ERROR "ftruncate failed"])
      | some disk => ({ m with disk }, [badAlloc])

def startWithoutMemory (sys : SysResults) (p : Bytes) (m : Manager) : Manager × List Bytes :=
  match checkStart p with
  | .error reply => (m, [reply])
  | .ok r =>
      match m.g_states.lookup r.file_id with
      | none => createWithoutMemory sys r m
      | some ex =>
          if r.resumes ex then handleFileStart sys p m
          else createWithoutMemory sys r (dropSession m r.file_id ex)

/-- resp.insert throws, and the session is already in the table. -/
def createWithoutReply (sys : SysResults) (r : StartRequest) (m : Manager) :
    Manager × List Bytes :=
  let (m, replies) := createSession sys r m
  (m, replies.map fun reply => if IsFileError reply then reply else badAlloc)

/-- A session that is resumed has not been touched yet. -/
def startWithoutReply (sys : SysResults) (p : Bytes) (m : Manager) : Manager × List Bytes :=
  match checkStart p with
  | .error reply => (m, [reply])
  | .ok r =>
      match m.g_states.lookup r.file_id with
      | none => createWithoutReply sys r m
      | some ex =>
          if r.resumes ex then (m, [badAlloc])
          else createWithoutReply sys r (dropSession m r.file_id ex)

def queryWithoutReply (p : Bytes) (m : Manager) : Manager × List Bytes :=
  match checkQuery m p with
  | .error reply => (m, [reply])
  | .ok _ => (m, [badAlloc])

/-- The replies to other messages hold no bitmap. -/
def messageWithoutReply (sys : SysResults) (payload : Bytes) (m : Manager) :
    Manager × List Bytes :=
  match payload with
  | [] => (m, [])
  | msgType :: p =>
      if msgType = MSG_FILE_START then startWithoutReply sys p m
      else if msgType = MSG_FILE_QUERY then queryWithoutReply p m
      else handleClientMessage sys (msgType :: p) m

def Event.happens (m : Manager) : Event → Manager × List Bytes
  | .call c => perform m c
  | .noMemory sys p => startWithoutMemory sys p m
  | .noReply sys payload => messageWithoutReply sys payload m

def EventReachable (m : Manager) : Prop :=
  Run.Reachable Event.happens (fun s => ∃ disk, s = start disk) m

/-- ftruncate refuses the declared size. -/
def Untruncated (sys : SysResults) (r : StartRequest) : Prop :=
  sys.ftruncateOk = false ∨ 2 ^ 63 ≤ r.file_size.toNat

instance (sys : SysResults) (r : StartRequest) : Decidable (Untruncated sys r) :=
  inferInstanceAs (Decidable (_ ∨ _))

theorem truncateTo_none {sys : SysResults} {r : StartRequest} {disk : FileSystem Bytes} {fd : Nat} :
    truncateTo sys disk fd r.file_size.toInt64 = none ↔ Untruncated sys r := by
  have sign : r.file_size.toInt64 < 0 ↔ 2 ^ 63 ≤ r.file_size.toNat := by
    rw [Int64.lt_iff_toInt_lt]
    constructor
    · intro negative
      by_contra small
      rw [off_t_small (by omega)] at negative
      exact absurd negative (by simp)
    · intro large
      by_contra nonneg
      have small := off_t_nonneg (x := r.file_size) (by simpa using nonneg)
      omega
  unfold truncateTo Untruncated
  rw [← sign]
  split
  · rename_i refused
    exact iff_of_true rfl refused
  · rename_i passed
    exact iff_of_false (Option.some_ne_none _) passed

theorem truncated_sized {sys : SysResults} {r : StartRequest} {disk disk' : FileSystem Bytes}
    {fd : Nat} (done : truncateTo sys disk fd r.file_size.toInt64 = some disk') :
    ¬ Untruncated sys r := by
  intro short
  rw [truncateTo_none.mpr short] at done
  contradiction

section
variable {m : Manager} {sys : SysResults} {id : UInt64}

theorem createWithoutMemory_table (sys : SysResults) (r : StartRequest) (m : Manager) :
    (createWithoutMemory sys r m).1.g_states = m.g_states := by
  unfold createWithoutMemory
  split
  · rfl
  · split <;> rfl

theorem replaced_sound (sound : Sound m) : Sound (replaced m id) := by
  unfold replaced
  cases found : m.g_states.lookup id with
  | none => exact sound
  | some ex => exact (dropSession_effect sound found).1

theorem createWithoutMemory_effect {r : StartRequest} (sys : SysResults) (sound : Sound m)
    (absent : m.g_states.lookup r.file_id = none) :
    Effect r.file_id m (createWithoutMemory sys r m).1 := by
  have untouched {disk : FileSystem Bytes} (confined : Confined r.file_id m.disk disk) :
      Effect r.file_id m { m with disk } := by
    apply disk_effect sound confined
    intro st found
    rw [absent] at found
    contradiction
  unfold createWithoutMemory
  split
  · exact effect_refl _ sound
  · rename_i fd disk opened
    obtain ⟨free, rfl⟩ := openTemp_some opened
    have fresh : (m.disk.openTruncate (makeTempPath r.file_id) fd).Opened fd
      (makeTempPath r.file_id) := open_opened
    split
    · exact untouched (confined_trans (open_confined free) (close_confined fresh))
    · rename_i disk done
      obtain ⟨_, rfl⟩ := truncateTo_some done
      exact untouched (confined_trans (open_confined free) (modify_confined fresh _))

theorem startWithoutMemory_handled (sys : SysResults) (p : Bytes) (m : Manager) :
    (∃ reply, checkStart p = .error reply ∧ startWithoutMemory sys p m = (m, [reply])) ∨
    (∃ r ex, checkStart p = .ok r ∧ m.g_states.lookup r.file_id = some ex ∧ r.resumes ex = true ∧
      startWithoutMemory sys p m = (touch m r.file_id ex sys.now_seconds,
        [queryResponse r.file_id r.total_chunks ex.bitmap])) ∨
    ∃ r, checkStart p = .ok r ∧
      (∀ ex, m.g_states.lookup r.file_id = some ex → r.resumes ex = false) ∧
      startWithoutMemory sys p m = createWithoutMemory sys r (replaced m r.file_id) := by
  unfold startWithoutMemory
  cases checked : checkStart p with
  | error reply => exact .inl ⟨reply, rfl, rfl⟩
  | ok r =>
    right
    cases found : m.g_states.lookup r.file_id with
    | none =>
      right
      refine ⟨r, rfl, ?_, ?_⟩
      · intro ex here
        rw [found] at here
        contradiction
      · simp only [found, replaced]
    | some ex =>
      by_cases resumes : r.resumes ex = true
      · left
        refine ⟨r, ex, rfl, found, resumes, ?_⟩
        simp only [found, resumes, ↓reduceIte, handleFileStart, checked]
      · right
        refine ⟨r, rfl, ?_, ?_⟩
        · intro ex' here
          rw [found] at here
          obtain rfl := Option.some.inj here
          simpa using resumes
        · simp only [found, resumes, replaced]
          rfl

/- Without memory for its reply a message has been served, or its session has not been touched. -/
theorem messageWithoutReply_state (sys : SysResults) (payload : Bytes) (m : Manager) :
    (messageWithoutReply sys payload m).1 = (handleClientMessage sys payload m).1 ∨
    ∃ id ex, m.g_states.lookup id = some ex ∧
      (handleClientMessage sys payload m).1 = touch m id ex sys.now_seconds ∧
      (messageWithoutReply sys payload m).1 = m := by
  cases payload with
  | nil => exact .inl rfl
  | cons msgType p =>
    simp only [messageWithoutReply, handleClientMessage]
    split
    · unfold startWithoutReply handleFileStart
      cases checkStart p with
      | error reply => exact .inl rfl
      | ok r =>
        simp only
        cases found : m.g_states.lookup r.file_id with
        | none => exact .inl rfl
        | some ex =>
          simp only
          split
          · exact .inr ⟨r.file_id, ex, found, rfl, rfl⟩
          · exact .inl rfl
    · split
      · unfold queryWithoutReply handleFileQuery
        cases checked : checkQuery m p with
        | error reply => exact .inl rfl
        | ok r => exact .inr ⟨r.file_id, r.st, (checkQuery_ok checked).2.2, rfl, rfl⟩
      · exact .inl rfl

theorem event_sound (sound : Sound m) (e : Event) : Sound (e.happens m).1 := by
  cases e with
  | call c => exact perform_sound c sound
  | noMemory sys p =>
    simp only [Event.happens]
    rcases startWithoutMemory_handled sys p m with
      ⟨reply, _, served⟩ | ⟨r, ex, _, found, _, served⟩ | ⟨r, _, _, served⟩
    · rw [served]
      exact sound
    · rw [served]
      exact (touch_effect sound found sys.now_seconds).1
    · rw [served]
      exact (createWithoutMemory_effect sys (replaced_sound sound)
        (replaced_absent m r.file_id)).1
  | noReply sys payload =>
    simp only [Event.happens]
    rcases messageWithoutReply_state sys payload m with served | ⟨_, _, _, _, still⟩
    · rw [served]
      exact (handleClientMessage_effect sys payload sound).1
    · rw [still]
      exact sound

end

theorem eventReachable_sound {m : Manager} (reachable : EventReachable m) : Sound m := by
  apply Run.invariant_reachable _ _ reachable
  · rintro s ⟨disk, rfl⟩
    exact start_sound disk
  · exact fun _ e sound => event_sound sound e

end FileTransferManager
