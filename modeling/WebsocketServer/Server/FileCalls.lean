import WebsocketServer.File.Steps
import WebsocketServer.Library.Simulation
import WebsocketServer.Server.Workers

/- The file manager inside the server. Its calls come from the workers and from the timer; in
   whatever way their steps interleave, they are one sequence of calls. -/
namespace WssServer
open WebSocketCodec

def workerCall (sys : FileTransferManager.SysResults) : Worker → List FileTransferManager.Call
  | .locked _ ⟨_, .binary payload⟩ => [.message sys payload]
  | _ => []

/-- What the IO thread asks of it: the clean-up that ends a timer event. -/
def ioCall (sys : Answers) : IoState → List FileTransferManager.Call
  | .closeEach [] => [.cleanup sys.order sys.unlinkOk sys.now_seconds 600 1024]
  | _ => []

def fileCall (config : Config) (s : Server) : Input → List FileTransferManager.Call
  | .worker w sys => if w < config.workerCount then workerCall sys (s.workers w) else []
  | .io sys => ioCall sys s.io
  | .epoll _ _ | .listen _ _ _ | .timer _ _ | .wake _ => []

def fileCalls (config : Config) (disk : FileSystem Bytes) (inputs : List Input) :
    List FileTransferManager.Call :=
  Run.passed (step config) (fileCall config) (start disk) inputs

def callPayload : FileTransferManager.Call → Option Bytes
  | .message _ payload => some payload
  | .cleanup _ _ _ _ _ => none

def handledPayload : Observation → Option Bytes
  | .handled _ _ (.binary payload) => some payload
  | _ => none

/-- The frames a worker makes of a message, with the file manager as the message finds it. -/
def replyFrames (sys : FileTransferManager.SysResults) (m : FileTransferManager.Manager) :
    Message → List Bytes
  | .text payload => [buildTextFrame payload]
  | .binary payload =>
      (FileTransferManager.handleClientMessage sys payload m).2.map buildBinaryFrame

def Worker.reply : Worker → Option (ConnRef × Nat × List Bytes)
  | .replying ticket conn frames | .appending ticket conn frames => some (conn, ticket, frames)
  | .waiting | .fetched _ _ | .locked _ _ | .notifying _ => none

section
variable {config : Config} {s : Server} {r : Stepped}

theorem close_fileManager (s : Server) (fd : Nat) :
    (s.closeConnection fd).fileManager = s.fileManager := by
  rcases s.closeConnection_cases fd with ⟨_, run⟩ | ⟨c, _, run⟩
  · rw [run]
  · rw [run]
    rfl

theorem Pushes.fileManager {sys : Answers} {at' io : IoState} {s' : Server} {c : ConnRef}
    {kind : ItemKind} {item : Bytes} (site : Pushes sys s at' s' c kind item io) :
    s'.fileManager = s.fileManager := by
  cases site <;> rfl

/- The IO thread calls the file manager when it is done with a timer, and never else. -/
theorem ioMove_fileManager {sys : Answers} (move : IoMove config sys s r)
    (elsewhere : s.io ≠ .closeEach []) : r.1.fileManager = s.fileManager := by
  cases move with
  | closes site => exact close_fileManager s _
  | drains site out closing => exact close_fileManager (s.sent _ _) _
  | throws site left thrown => exact close_fileManager (takeParser s _ _) _
  | pushes site unlocked => exact site.fileManager
  | cleans here => exact absurd here elsewhere
  | _ => rfl

theorem ioStep_calls (config : Config) (sys : Answers) (s : Server) :
    (ioStep config sys s).1.fileManager =
      Run.final FileTransferManager.perform s.fileManager (ioCall sys s.io) := by
  by_cases cleans : s.io = .closeEach []
  · rw [cleans]
    unfold ioStep
    simp only [cleans]
    rfl
  · have none : ioCall sys s.io = [] := by
      unfold ioCall
      split
      · contradiction
      · rfl
    rw [none, ioMove_fileManager (ioStep_move config sys s) cleans]
    rfl

theorem workerStep_calls (config : Config) (sys : FileTransferManager.SysResults) (s : Server)
    (w : Nat) :
    (workerStep config sys s w).1.fileManager =
      Run.final FileTransferManager.perform s.fileManager (workerCall sys (s.workers w)) := by
  unfold workerStep
  cases state : s.workers w with
  | waiting =>
    dsimp only
    unfold workerLoop
    cases s.pool.take <;> rfl
  | fetched ticket task => rfl
  | locked ticket task =>
    obtain ⟨weak, message⟩ := task
    cases message with
    | text payload => rfl
    | binary payload => rfl
  | replying ticket conn frames =>
    apply Server.whenUnlocked_either (P := fun r => r.1.fileManager = s.fileManager)
    · rfl
    · unfold checkOpen
      dsimp only
      split <;> rfl
  | appending ticket conn frames => rfl
  | notifying conn => rfl

theorem arrival_fileManager (config : Config) (s : Server) {i : Input} (io : ∀ sys, i ≠ .io sys)
    (worker : ∀ w sys, i ≠ .worker w sys) :
    (step config s i).1.fileManager = s.fileManager := by
  have move := step_move config s i
  generalize step config s i = r at move ⊢
  cases move with
  | io sys => exact absurd rfl (io sys)
  | @worker w real sys => exact absurd rfl (worker w sys)
  | hangup fd e => exact close_fileManager s fd
  | refuses now waits fresh => exact close_fileManager (addConnection config s _ now) _
  | _ => rfl

theorem contains_fileManager (config : Config) :
    Run.Contains (step config) FileTransferManager.perform (fileCall config)
      Server.fileManager := by
  intro s i
  cases i with
  | io sys => exact ioStep_calls config sys s
  | worker w sys =>
    unfold fileCall
    by_cases real : w < config.workerCount
    · simp only [step, if_pos real]
      exact workerStep_calls config sys s w
    · simp only [step, if_neg real]
      rfl
  | epoll | listen | timer | wake => exact arrival_fileManager config s (by simp) (by simp)

theorem step_payloads (config : Config) (s : Server) (i : Input) :
    (fileCall config s i).filterMap callPayload = (step config s i).2.filterMap handledPayload := by
  have quiet (main : ∀ w sys, i ≠ .worker w sys) :
      (step config s i).2.filterMap handledPayload = [] := by
    rw [List.filterMap_eq_nil_iff]
    rcases (step_main config s main).tasks with ⟨_, plain⟩ | ⟨c, message, _, _, out⟩
    · intro o mem
      have plain := plain o mem
      cases o with
      | handled c ticket message => exact plain.elim
      | _ => rfl
    · rw [out]
      intro o mem
      rw [List.mem_singleton.mp mem]
      rfl
  cases i with
  | worker w sys =>
    unfold fileCall
    by_cases real : w < config.workerCount
    · simp only [step, if_pos real]
      unfold workerStep
      cases state : s.workers w with
      | waiting =>
        dsimp only
        unfold workerLoop
        cases s.pool.take <;> rfl
      | fetched ticket task => rfl
      | locked ticket task =>
        obtain ⟨weak, message⟩ := task
        cases message <;> rfl
      | replying ticket conn frames =>
        apply Server.whenUnlocked_either (P := fun r => _ = r.2.filterMap handledPayload)
        · rfl
        · unfold checkOpen
          dsimp only
          split <;> rfl
      | appending ticket conn frames => rfl
      | notifying conn => rfl
    · simp only [step, if_neg real]
      rfl
  | io sys =>
    rw [quiet (by simp), fileCall, ioCall.eq_def]
    split <;> rfl
  | epoll | listen | timer | wake =>
    rw [quiet (by simp)]
    rfl

end

theorem reply_pushed {config : Config} {s : Server} {i : Input} {c : ConnRef} {ticket : Nat}
    {frames : List Bytes} (pushed : .enqueued c (.reply ticket) frames ∈ (step config s i).2) :
    ∃ w sys, i = .worker w sys ∧ (s.workers w).reply = some (c, ticket, frames) := by
  by_cases main : ∀ w sys, i ≠ .worker w sys
  · rcases (step_main config s main).tasks with ⟨_, plain⟩ | ⟨_, _, _, _, out⟩
    · exact (plain _ pushed).elim
    · rw [out] at pushed
      simp at pushed
  · simp only [not_forall, not_not] at main
    obtain ⟨w, sys, rfl⟩ := main
    refine ⟨w, sys, rfl, ?_⟩
    by_cases real : w < config.workerCount
    · simp only [step, if_pos real] at pushed
      have move := workerStep_move config sys s w
      generalize workerStep config sys s w = r at move pushed
      cases move with
      | pushes inside =>
        simp only [pushReplies, List.mem_singleton, Observation.enqueued.injEq,
          ItemKind.reply.injEq] at pushed
        obtain ⟨rfl, rfl, rfl⟩ := pushed
        rw [inside]
        rfl
      | _ => simp at pushed
    · simp only [step, if_neg real] at pushed
      contradiction

/-- A step of the run carried the message of the ticket out, and these are its frames: the answer
    of the file manager in the state the calls before it lead to. -/
def Produced (config : Config) (disk : FileSystem Bytes) (inputs : List Input) (c : ConnRef)
    (ticket : Nat) (frames : List Bytes) : Prop :=
  ∃ earlier w sys later message, inputs = earlier ++ .worker w sys :: later ∧
    (step config (Run.final (step config) (start disk) earlier) (.worker w sys)).2 =
      [.handled c ticket message] ∧
    frames = replyFrames sys (Run.final FileTransferManager.perform (FileTransferManager.start disk)
      (fileCalls config disk earlier)) message

section
variable {config : Config} {disk : FileSystem Bytes} {inputs : List Input}

theorem Produced.append {c : ConnRef} {ticket : Nat} {frames : List Bytes}
    (produced : Produced config disk inputs c ticket frames) (i : Input) :
    Produced config disk (inputs ++ [i]) c ticket frames := by
  obtain ⟨earlier, w, sys, later, message, same, out, made⟩ := produced
  exact ⟨earlier, w, sys, later ++ [i], message, by rw [same]; simp, out, made⟩

/-- The replies that are under way or in a queue are those the sequence of calls gave. -/
structure ReplyInv (config : Config) (disk : FileSystem Bytes) (inputs : List Input) (s : Server) :
    Prop where
  here : s = Run.final (step config) (start disk) inputs
  replies : ∀ w t, (s.workers w).reply = some t → Produced config disk inputs t.1 t.2.1 t.2.2
  pushed : ∀ c ticket frames,
    .enqueued c (.reply ticket) frames ∈ Run.trace (step config) (start disk) inputs →
      Produced config disk inputs c ticket frames

theorem handled_reply {s : Server} (inv : ReplyInv config disk inputs s) {w : Nat}
    (real : w < config.workerCount) {ticket : Nat} {task : Task}
    (locked : s.workers w = .locked ticket task) (sys : FileTransferManager.SysResults) :
    Produced config disk (inputs ++ [.worker w sys]) task.weak ticket
      (replyFrames sys s.fileManager task.message) := by
  have here := inv.here
  refine ⟨inputs, w, sys, [], task.message, rfl, ?_, ?_⟩
  · rw [← here]
    simp only [step, if_pos real, workerStep, locked]
    cases task.message <;> rfl
  · rw [here, (contains_fileManager config).final]
    rfl

theorem workerStep_replied {s : Server} (inv : ReplyInv config disk inputs s) {w : Nat}
    (real : w < config.workerCount) (sys : FileTransferManager.SysResults) :
    ∀ w' t, ((workerStep config sys s w).1.workers w').reply = some t →
      Produced config disk (inputs ++ [.worker w sys]) t.1 t.2.1 t.2.2 := by
  have old : ∀ w' t, (s.workers w').reply = some t →
      Produced config disk (inputs ++ [.worker w sys]) t.1 t.2.1 t.2.2 :=
    fun w' t held => (inv.replies w' t held).append _
  unfold workerStep
  cases state : s.workers w with
  | waiting =>
    dsimp only
    unfold workerLoop
    cases s.pool.take with
    | none => exact old
    | some taken => exact setWorker_some old rfl (by simp [Worker.reply])
  | fetched ticket task =>
    dsimp only
    by_cases gone : expired config s task.weak = true
    · rw [if_pos gone]
      exact setWorker_some old rfl (by simp [Worker.reply])
    · rw [if_neg gone]
      exact setWorker_some old rfl (by simp [Worker.reply])
  | locked ticket task =>
    have made := handled_reply inv real state sys
    obtain ⟨weak, message⟩ := task
    cases message with
    | text payload =>
      apply setWorker_some old rfl
      intro t held
      obtain rfl := Option.some.inj held
      exact made
    | binary payload =>
      unfold runTask
      dsimp only
      apply setWorker_some old rfl
      intro t held
      split at held
      · contradiction
      · obtain rfl := Option.some.inj held
        exact made
  | replying ticket conn frames =>
    apply Server.whenUnlocked_either (P := fun r => ∀ w' t, (r.1.workers w').reply = some t →
      Produced config disk (inputs ++ [Input.worker w sys]) t.1 t.2.1 t.2.2)
    · exact old
    · unfold checkOpen
      dsimp only
      split
      · exact setWorker_some old rfl (by simp [Worker.reply])
      · apply setWorker_some old (s.modify_workers _ _)
        intro t held
        exact old w t (by rw [state]; exact held)
  | appending ticket conn frames =>
    exact setWorker_some old (s.modify_workers _ _) (by simp [Worker.reply])
  | notifying conn => exact setWorker_some old rfl (by simp [Worker.reply])

theorem step_replied {s : Server} (inv : ReplyInv config disk inputs s) (i : Input) :
    ReplyInv config disk (inputs ++ [i]) (step config s i).1 where
  here := by
    rw [Run.final_append, ← inv.here]
    rfl
  replies := by
    cases i with
    | worker w sys =>
      by_cases real : w < config.workerCount
      · simp only [step, if_pos real]
        exact workerStep_replied inv real sys
      · simp only [step, if_neg real]
        exact fun w' t held => (inv.replies w' t held).append _
    | io | epoll | listen | timer | wake =>
      rw [(step_main config s (by simp)).workers]
      exact fun w' t held => (inv.replies w' t held).append _
  pushed := by
    intro c ticket frames mem
    rw [Run.trace_snoc, ← inv.here] at mem
    rcases List.mem_append.mp mem with old | now
    · exact (inv.pushed c ticket frames old).append i
    · obtain ⟨w, sys, _, held⟩ := reply_pushed now
      exact (inv.replies w _ held).append i

theorem start_replied (config : Config) (disk : FileSystem Bytes) :
    ReplyInv config disk [] (start disk) where
  here := rfl
  replies := by simp [start, Worker.reply]
  pushed := by simp [Run.trace, Run.steps]

end

/-- The workers and the timer use the file manager as one client would that makes one call after
    another: the manager is where the sequence of the calls leads, the messages of the sequence
    are those handled, in that order, and every reply a worker holds or has pushed to a connection
    is what the sequence answered to the message of its ticket. -/
theorem calls_linearized (config : Config) (disk : FileSystem Bytes) (inputs : List Input) :
    let last := Run.final (step config) (start disk) inputs
    last.fileManager = Run.final FileTransferManager.perform (FileTransferManager.start disk)
        (fileCalls config disk inputs) ∧
      (fileCalls config disk inputs).filterMap callPayload =
        (Run.trace (step config) (start disk) inputs).filterMap handledPayload ∧
      (∀ w c ticket frames, (last.workers w).reply = some (c, ticket, frames) →
        Produced config disk inputs c ticket frames) ∧
      (∀ c ticket frames,
        .enqueued c (.reply ticket) frames ∈ Run.trace (step config) (start disk) inputs →
          Produced config disk inputs c ticket frames) ∧
      ∀ i c ticket frames, .enqueued c (.reply ticket) frames ∈ (step config last i).2 →
        Produced config disk inputs c ticket frames := by
  intro last
  have inv : ReplyInv config disk inputs last := Run.invariant_inputs (ReplyInv config disk)
    (fun _ _ i inv => step_replied inv i) inputs (start_replied config disk)
  refine ⟨(contains_fileManager config).final (start disk) inputs,
    Run.passed_reported (step_payloads config) (start disk) inputs,
    fun w c ticket frames held => inv.replies w _ held, inv.pushed, ?_⟩
  intro i c ticket frames pushed
  obtain ⟨w, sys, _, held⟩ := reply_pushed pushed
  exact inv.replies w _ held

end WssServer
