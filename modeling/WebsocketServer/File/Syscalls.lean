import WebsocketServer.Library.Simulation
import WebsocketServer.File.Representation

/- The system calls behind every message and cleanup, in the order the source makes them. -/
namespace FileTransferManager
open FileSystem

def closeCalls : Option Nat → List (Syscall Bytes)
  | none => []
  | some fd => [.close fd]

def createCalls (sys : SysResults) (r : StartRequest) (disk : FileSystem Bytes) :
    List (Syscall Bytes) :=
  match openTemp sys disk (makeTempPath r.file_id) with
  | none => []
  | some (fd, disk) =>
      .openTruncate (makeTempPath r.file_id) fd ::
        match truncateTo sys disk fd r.file_size.toInt64 with
        | none => [.close fd]
        | some _ => [.ftruncate fd r.file_size.toInt64.toInt.toNat]

def startCalls (sys : SysResults) (p : Bytes) (m : Manager) : List (Syscall Bytes) :=
  match checkStart p with
  | .error _ => []
  | .ok r =>
      match m.g_states.lookup r.file_id with
      | none => createCalls sys r m.disk
      | some ex =>
          if r.resumes ex then []
          else closeCalls ex.fd ++ createCalls sys r (closeFd m.disk ex.fd)

def finishCalls (sys : SysResults) (st : FileState) (disk : FileSystem Bytes) :
    List (Syscall Bytes) :=
  match computeFdCrc32 sys disk st.fd with
  | .error _ => []
  | .ok fileCrc =>
      closeCalls st.fd ++
        if fileCrc = st.expected_crc32 then
          if sys.renameOk then
            [.rename st.temp_path (makeFinalPath st.file_id st.final_display_name)]
          else []
        else if sys.unlinkOk then [.unlink st.temp_path]
        else []

def pwriteCalls (sys : SysResults) (fd : Option Nat) (data : Bytes) (offset : Int64) :
    List (Syscall Bytes) :=
  match fd, sys.pwriteCount with
  | some fd, some n => if offset < 0 then [] else [.pwrite fd (data.take n) offset.toInt.toNat]
  | _, _ => []

def chunkCalls (sys : SysResults) (p : Bytes) (m : Manager) : List (Syscall Bytes) :=
  match checkChunk m p with
  | .error _ => []
  | .ok r =>
      let offset := chunkOffset r.chunk_index r.st.chunk_size
      let (written, disk) := pwriteAt sys m.disk r.st.fd r.chunkData offset
      let st := chunkState sys r
      pwriteCalls sys r.st.fd r.chunkData offset ++
        if written = some r.chunkData.length ∧ st.received_count = st.total_chunks then
          finishCalls sys st disk
        else []

def messageCalls (sys : SysResults) (payload : Bytes) (m : Manager) : List (Syscall Bytes) :=
  match payload with
  | [] => []
  | msgType :: p =>
      if msgType = MSG_FILE_START then startCalls sys p m
      else if msgType = MSG_FILE_QUERY then []
      else if msgType = MSG_FILE_CHUNK then chunkCalls sys p m
      else []

/-- What a call of a cleanup does to the disk, if anything. -/
def CleanupCall.syscall : CleanupCall → Option (Syscall Bytes)
  | .close fd => some (.close fd)
  | .unlink path ok => if ok then some (.unlink path) else none

def removeCalls (unlinkOk : UInt64 → Bool) (m : Manager) (ids : List UInt64) :
    List (Syscall Bytes) :=
  (removals unlinkOk m ids).2.filterMap CleanupCall.syscall

def removedIds (order : OldestFirst) (unlinkOk : UInt64 → Bool) (now_seconds ttl_seconds : UInt64)
    (max_sessions : Nat) (m : Manager) : List UInt64 :=
  let expired := expiredIds now_seconds ttl_seconds m
  expired ++ evictedIds order max_sessions (expired.foldl (removeSession unlinkOk) m)

def Event.syscalls (m : Manager) : Event → List (Syscall Bytes)
  | .call (.message sys payload) => messageCalls sys payload m
  | .call (.cleanup order unlinkOk now_seconds ttl_seconds max_sessions) =>
      (cleanupCalls order unlinkOk now_seconds ttl_seconds max_sessions m).filterMap
        CleanupCall.syscall
  | .noMemory sys p => startCalls sys p m
  | .noReply sys payload => messageCalls sys payload m

/-- One event, with the system calls it makes. -/
def step (m : Manager) (e : Event) : Manager × List (Syscall Bytes) :=
  ((e.happens m).1, e.syscalls m)

theorem cleanup_removes (order : OldestFirst) (unlinkOk : UInt64 → Bool)
    (now_seconds ttl_seconds : UInt64) (max_sessions : Nat) (m : Manager) :
    cleanup order unlinkOk now_seconds ttl_seconds max_sessions m =
      removals unlinkOk m (removedIds order unlinkOk now_seconds ttl_seconds max_sessions m) := by
  unfold cleanup removals removedIds
  rw [Run.final_append, Run.trace_append]
  rfl

theorem cleanupSessions_removes (order : OldestFirst) (unlinkOk : UInt64 → Bool)
    (now_seconds ttl_seconds : UInt64) (max_sessions : Nat) (m : Manager) :
    cleanupSessions order unlinkOk now_seconds ttl_seconds max_sessions m =
      (removedIds order unlinkOk now_seconds ttl_seconds max_sessions m).foldl
        (removeSession unlinkOk) m := by
  rw [cleanupSessions, cleanup_removes]
  rfl

theorem close_replay (disk : FileSystem Bytes) (fd : Option Nat) :
    closeFd disk fd = (closeCalls fd).foldl FileSystem.apply disk := by
  cases fd <;> rfl

theorem create_replay (sys : SysResults) (r : StartRequest) (m : Manager) :
    (createSession sys r m).1.disk = (createCalls sys r m.disk).foldl FileSystem.apply m.disk ∧
      (createWithoutMemory sys r m).1.disk =
        (createCalls sys r m.disk).foldl FileSystem.apply m.disk := by
  unfold createSession createWithoutMemory createCalls
  cases opened : openTemp sys m.disk (makeTempPath r.file_id) with
  | none => exact ⟨rfl, rfl⟩
  | some handle =>
    obtain ⟨fd, disk⟩ := handle
    obtain ⟨_, rfl⟩ := openTemp_some opened
    cases truncated : truncateTo sys (m.disk.openTruncate (makeTempPath r.file_id) fd) fd
      r.file_size.toInt64 with
    | none => simp only [truncated, List.foldl_cons, List.foldl_nil, FileSystem.apply, and_self]
    | some disk =>
      obtain ⟨_, rfl⟩ := truncateTo_some truncated
      simp only [truncated, List.foldl_cons, List.foldl_nil, FileSystem.apply, and_self]

theorem finish_replay (sys : SysResults) (id : UInt64) (st : FileState) (m : Manager) :
    (finishUpload sys id st m).1.disk =
      (finishCalls sys st m.disk).foldl FileSystem.apply m.disk := by
  unfold finishUpload finishCalls
  cases computeFdCrc32 sys m.disk st.fd with
  | error what => rfl
  | ok fileCrc =>
    simp only [List.foldl_append, ← close_replay]
    by_cases passes : fileCrc = st.expected_crc32
    · cases sys.renameOk <;> simp [passes, FileSystem.apply]
    · cases sys.unlinkOk <;> simp [passes, FileSystem.apply]

theorem pwrite_replay (sys : SysResults) (disk : FileSystem Bytes) (fd : Option Nat)
    (data : Bytes) (offset : Int64) :
    (pwriteAt sys disk fd data offset).2 =
      (pwriteCalls sys fd data offset).foldl FileSystem.apply disk := by
  unfold pwriteAt pwriteCalls
  cases fd with
  | none => rfl
  | some fd =>
    cases sys.pwriteCount with
    | none => rfl
    | some n =>
      simp only
      split <;> rfl

theorem removeCalls_cons (unlinkOk : UInt64 → Bool) (m : Manager) (id : UInt64)
    (ids : List UInt64) :
    removeCalls unlinkOk m (id :: ids) =
      (removal unlinkOk m id).2.filterMap CleanupCall.syscall ++
        removeCalls unlinkOk (removeSession unlinkOk m id) ids := by
  unfold removeCalls
  rw [← List.filterMap_append]
  rfl

theorem removal_some {m : Manager} (unlinkOk : UInt64 → Bool) {id : UInt64} {st : FileState}
    (found : m.g_states.lookup id = some st) :
    (removal unlinkOk m id).2.filterMap CleanupCall.syscall =
      closeCalls st.fd ++ if unlinkOk id then [.unlink st.temp_path] else [] := by
  simp only [removal, found]
  cases st.fd <;> cases unlinked : unlinkOk id <;> simp [closeCalls, CleanupCall.syscall]

theorem cleanup_syscalls (order : OldestFirst) (unlinkOk : UInt64 → Bool)
    (now_seconds ttl_seconds : UInt64) (max_sessions : Nat) (m : Manager) :
    (step m (.call (.cleanup order unlinkOk now_seconds ttl_seconds max_sessions))).2 =
      removeCalls unlinkOk m
        (removedIds order unlinkOk now_seconds ttl_seconds max_sessions m) := by
  simp only [step, Event.syscalls, cleanupCalls, cleanup_removes, removeCalls]

def Replayed (disk : FileSystem Bytes) (calls : List CleanupCall) (m : Manager) : Prop :=
  m.disk = calls.foldl CleanupCall.apply disk

theorem removal_replayed {disk : FileSystem Bytes} {calls : List CleanupCall} {m : Manager}
    (unlinkOk : UInt64 → Bool) (id : UInt64) (replayed : Replayed disk calls m) :
    Replayed disk (calls ++ (removal unlinkOk m id).2) (removal unlinkOk m id).1 := by
  unfold Replayed at replayed ⊢
  rw [List.foldl_append, ← replayed]
  unfold removal
  cases m.g_states.lookup id <;> rfl

theorem removals_replay (unlinkOk : UInt64 → Bool) (m : Manager) (ids : List UInt64) :
    Replayed m.disk (removals unlinkOk m ids).2 (removals unlinkOk m ids).1 := by
  have begins : Replayed m.disk [] m := rfl
  exact Run.invariant_trace (Replayed m.disk) (fun _ _ => True)
    (fun _ _ id replayed _ => removal_replayed unlinkOk id replayed) begins fun _ _ => trivial

theorem effective_replay (calls : List CleanupCall) (disk : FileSystem Bytes) :
    calls.foldl CleanupCall.apply disk =
      (calls.filterMap CleanupCall.syscall).foldl FileSystem.apply disk := by
  rw [List.foldl_filterMap]
  congr 1
  funext disk call
  cases call with
  | close fd => rfl
  | unlink path ok => cases ok <;> rfl

theorem chunk_replay (sys : SysResults) (p : Bytes) (m : Manager) :
    (handleFileChunk sys p m).1.disk = (chunkCalls sys p m).foldl FileSystem.apply m.disk := by
  unfold handleFileChunk chunkCalls
  cases checked : checkChunk m p with
  | error replies => rfl
  | ok r =>
    simp only [List.foldl_append, ← pwrite_replay]
    rcases storeChunk_cases sys r m with
      ⟨partly, result⟩ | ⟨whole, open', result⟩ | ⟨whole, full, result⟩ <;> rw [result]
    · rw [if_neg fun both => partly both.1]
      rfl
    · simp only [open', and_false, ↓reduceIte]
      rfl
    · simp only [whole, full, and_self, ↓reduceIte]
      exact finish_replay sys r.file_id (chunkState sys r) _

theorem start_replay (sys : SysResults) (p : Bytes) (m : Manager) :
    (handleFileStart sys p m).1.disk = (startCalls sys p m).foldl FileSystem.apply m.disk ∧
      (startWithoutMemory sys p m).1.disk =
        (startCalls sys p m).foldl FileSystem.apply m.disk := by
  unfold handleFileStart startWithoutMemory startCalls
  cases checked : checkStart p with
  | error reply => exact ⟨rfl, rfl⟩
  | ok r =>
    simp only
    cases found : m.g_states.lookup r.file_id with
    | none => exact create_replay sys r m
    | some ex =>
      simp only
      by_cases resumes : r.resumes ex = true
      · simp only [resumes, ↓reduceIte, handleFileStart, checked, found]
        exact ⟨rfl, rfl⟩
      · simp only [resumes, Bool.false_eq_true, ↓reduceIte, List.foldl_append, ← close_replay]
        exact create_replay sys r (dropSession m r.file_id ex)

theorem message_replay (sys : SysResults) (payload : Bytes) (m : Manager) :
    (handleClientMessage sys payload m).1.disk =
      (messageCalls sys payload m).foldl FileSystem.apply m.disk := by
  cases payload with
  | nil => rfl
  | cons msgType p =>
    simp only [handleClientMessage, messageCalls]
    split
    · exact (start_replay sys p m).1
    · split
      · unfold handleFileQuery
        cases checkQuery m p <;> rfl
      · split
        · exact chunk_replay sys p m
        · rfl

theorem syscalls_replay (m : Manager) (e : Event) :
    (step m e).1.disk = (step m e).2.foldl FileSystem.apply m.disk := by
  cases e with
  | call c =>
    cases c with
    | message sys payload => exact message_replay sys payload m
    | cleanup order unlinkOk now_seconds ttl_seconds max_sessions =>
      have replayed := removals_replay unlinkOk m
        (removedIds order unlinkOk now_seconds ttl_seconds max_sessions m)
      rw [Replayed, effective_replay] at replayed
      rw [cleanup_syscalls]
      simp only [step, Event.happens, perform, cleanupSessions, cleanup_removes]
      exact replayed
  | noMemory sys p => exact (start_replay sys p m).2
  | noReply sys payload =>
    have served := message_replay sys payload m
    simp only [step, Event.happens, Event.syscalls]
    rcases messageWithoutReply_state sys payload m with same | ⟨id, ex, _, touched, still⟩
    · rw [same, served]
    · rw [touched] at served
      rw [still, ← served]
      rfl

end FileTransferManager
