import WebsocketServer.Library.CText
import WebsocketServer.Server.EventBatch
import WebsocketServer.Server.HttpFraming

/- wss_browser.log: what the POSTs of browsers to the HTTP port leave in it. -/
namespace WssServer
open CString HttpResponder

structure LocalTime where
  year : Nat
  month : Nat
  day : Nat
  hour : Nat
  minute : Nat
  second : Nat
  ms : Nat
  deriving DecidableEq

inductive StatResult where
  | directory
  | other
  | missing
  deriving DecidableEq

inductive MkdirResult where
  | made
  | exists
  | error
  deriving DecidableEq

/-- The answers to the calls of one append; takes is how many bytes of it reach the file. -/
structure AppendAnswers where
  stat : StatResult
  mkdir : MkdirResult
  good : Bool
  now : LocalTime
  takes : Nat
  deriving DecidableEq

/-- setw(width) and setfill('0') -/
def zeroPadded (width n : Nat) : Bytes :=
  List.replicate (width - (decimal n).length) 48 ++ decimal n

/-- %Y-%m-%d %H:%M:%S and the milliseconds. -/
def httpLogTimestamp (t : LocalTime) : Bytes :=
  decimal t.year ++ 45 :: (zeroPadded 2 t.month ++ 45 :: (zeroPadded 2 t.day ++
    32 :: (zeroPadded 2 t.hour ++ 58 :: (zeroPadded 2 t.minute ++ 58 :: (zeroPadded 2 t.second ++
      46 :: zeroPadded 3 t.ms)))))

def ensureDirForLog (sys : AppendAnswers) : Bool :=
  match sys.stat with
  | .directory => true
  | .other => false
  | .missing => sys.mkdir = .made || sys.mkdir = .exists

def browserLine (t : LocalTime) (one_line : Bytes) : Bytes :=
  bytes "[" ++ (httpLogTimestamp t ++ (bytes "][信息] wss_browser:" ++ one_line))

/-- What is returned, and the file behind the call. -/
def appendBrowserClientLogFile (log_dir : Bytes) (sys : AppendAnswers) (one_line file : Bytes) :
    Bool × Bytes :=
  if log_dir = [] then (false, file)
  else if !ensureDirForLog sys then (false, file)
  else if !sys.good then (false, file)
  else (true, file ++ (browserLine sys.now one_line ++ [10]).take sys.takes)

/-- The event loop with the file; each input comes with the answers for the append it may make. -/
structure Logging where
  loop : Loop
  file : Bytes

def loggedLine : LoopObservation → Option Bytes
  | .logged line => some line
  | _ => none

def logStep (args : RunArgs) (s : Logging) (i : LoopInput × AppendAnswers) :
    Logging × List LoopObservation :=
  let r := loopStep args s.loop i.1
  (⟨r.1, (r.2.filterMap loggedLine).foldl
    (fun file line => (appendBrowserClientLogFile args.http.browserClientLogDir i.2 line file).2)
      s.file⟩,
    r.2)

def announced (buf : Bytes) : Option (Nat × Bytes) :=
  match route buf, headerEnd buf with
  | .log, some header_end =>
      match parseContentLengthHeader (buf.take header_end) with
      | some cl =>
          if 0 < cl ∧ cl ≤ kMaxBrowserLogBody then some (cl, buf.drop (header_end + 4)) else none
      | none => none
  | _, _ => none

/-- The body that is whole when recv has nothing left, unless it grew too large or recv failed
    before that. -/
def bodyRead (cl : Nat) : List RecvResult → Bytes → Option Bytes
  | [], _ | .again :: _, _ | .error :: _, _ => none
  | .ret data :: recvs, accum =>
      if data = [] then none
      else
        let accum := accum ++ data.take 4096
        if accum.length > kMaxBrowserLogBody then none
        else if accum.length ≥ cl then some (accum.take cl)
        else bodyRead cl recvs accum

/-- The body of the POST that an event completes, in the read that completes its head or in a
    later one. -/
def acceptedPost (config : HttpConfig) (sys : HttpAnswers) (e : Events) (hc : HttpConnection) :
    Option Bytes :=
  if config.browserClientLogDir = [] ∨ e.EPOLLERR ∨ !e.EPOLLIN then none
  else
    match hc.phase with
    | .ReadingHeaders => do
        let buf ← headRead sys.recvs hc.read_buf
        let (cl, body) ← announced buf
        if cl ≤ body.length then some (body.take cl) else none
    | .ReadingPostBody => bodyRead hc.post_content_length sys.recvs hc.post_body_accum
    | .WritingResponse => none

/-- The POST that a step of the loop accepts: the event at hand is one of an HTTP connection. -/
def stepPost (args : RunArgs) (s : Loop) : LoopInput → Option Bytes
  | .next sys =>
      match s.between, s.events with
      | true, ev :: _ =>
          if ev.fd = args.fds.timer_fd ∨ ev.fd = args.fds.wake_fd ∨
              some ev.fd = args.fds.http_listen_fd then none
          else
            (s.http_conns.lookup ev.fd).bind fun h =>
              acceptedPost args.http sys.http ev.e h.connection
      | _, _ => none
  | _ => none

structure Post where
  body : Bytes
  sys : AppendAnswers
  deriving DecidableEq

def Post.line (p : Post) : Bytes := browserLine p.sys.now p.body

/-- The file could be opened and took the line with its end. -/
structure Post.Written (p : Post) : Prop where
  directory : ensureDirForLog p.sys = true
  opened : p.sys.good = true
  whole : p.line.length + 1 ≤ p.sys.takes

def posts (args : RunArgs) : Loop → List (LoopInput × AppendAnswers) → List Post
  | _, [] => []
  | s, i :: is =>
      (stepPost args s i.1).toList.map (⟨·, i.2⟩) ++ posts args (loopStep args s i.1).1 is

/-- The file has grown by one line for each of them, and by nothing else. -/
def OneLineEach (file file' : Bytes) (ps : List Post) : Prop :=
  ∃ growth, file' = file ++ growth ∧ growth.splitOn 10 = ps.map Post.line ++ [[]]

section
variable {config : HttpConfig} {files : Bytes → FileRead} {hc : HttpConnection}

theorem readPostBody_logged (enabled : config.browserClientLogDir ≠ []) (recvs : List RecvResult) :
    (readPostBody config recvs hc).logged =
      (bodyRead hc.post_content_length recvs hc.post_body_accum).toList := by
  induction recvs generalizing hc with
  | nil => rfl
  | cons result recvs ih =>
    cases result with
    | again => rfl
    | error => rfl
    | ret data =>
      simp only [readPostBody, bodyRead]
      split
      · rfl
      · split
        · rfl
        · split
          · rfl
          · exact ih

theorem answerHead_logged (enabled : config.browserClientLogDir ≠ []) {header_end : Nat}
    (complete : headerEnd hc.read_buf = some header_end) :
    (answerHead config files hc header_end).logged =
      ((announced hc.read_buf).bind fun (cl, body) =>
        if cl ≤ body.length then some (body.take cl) else none).toList := by
  rw [answerHead_route complete, announced, complete]
  cases route hc.read_buf with
  | bad => rfl
  | preflight => rfl
  | file get_path =>
    rw [answerRoute]
    split
    · rfl
    · rfl
  | log =>
    simp only [answerRoute, answerPost, if_neg enabled]
    cases parseContentLengthHeader (hc.read_buf.take header_end) with
    | none => rfl
    | some cl =>
      dsimp only
      by_cases fits : 0 < cl ∧ cl ≤ kMaxBrowserLogBody
      · rw [if_pos fits, if_neg (by omega), Option.bind_some]
        dsimp only
        split
        · rfl
        · rfl
      · rw [if_neg fits, if_pos (by omega)]
        rfl

theorem readHeaders_logged (enabled : config.browserClientLogDir ≠ []) (recvs : List RecvResult) :
    (readHeaders config files recvs hc).logged =
      ((headRead recvs hc.read_buf).bind fun buf => (announced buf).bind fun (cl, body) =>
        if cl ≤ body.length then some (body.take cl) else none).toList := by
  induction recvs generalizing hc with
  | nil => rfl
  | cons result recvs ih =>
    cases result with
    | again => rfl
    | error => rfl
    | ret data =>
      simp only [readHeaders, headRead]
      split
      · rfl
      · split
        · rfl
        · cases complete : headerEnd (hc.read_buf ++ data.take 4096) with
          | some header_end =>
            simp only [Option.isSome_some, ↓reduceIte, Option.bind_some]
            apply answerHead_logged enabled
            exact complete
          | none =>
            simp only [Option.isSome_none, Bool.false_eq_true, ↓reduceIte]
            exact ih

theorem driveHttpWrite_phase (sends : List SendResult) {hc hc' : HttpConnection}
    (left : driveHttpWrite sends hc = some hc') : hc'.phase = hc.phase := by
  induction sends generalizing hc with
  | nil =>
    simp only [driveHttpWrite] at left
    split at left
    · rw [Option.some.inj left]
    · contradiction
  | cons result sends ih =>
    cases result with
    | error => contradiction
    | again =>
      simp only [driveHttpWrite] at left
      split at left
      · rw [Option.some.inj left]
      · contradiction
    | ret n =>
      simp only [driveHttpWrite] at left
      split at left
      · have later := ih left
        exact later
      · contradiction

theorem driveHttpRead_logged (enabled : config.browserClientLogDir ≠ []) (sys : HttpAnswers)
    {e : Events} (alive : e.EPOLLERR = false) (readable : e.EPOLLIN = true)
    (reading : hc.phase ≠ .WritingResponse) :
    (driveHttpRead config sys hc).logged = (acceptedPost config sys e hc).toList := by
  have open_event :
      ¬ (config.browserClientLogDir = [] ∨ e.EPOLLERR = true ∨ (!e.EPOLLIN) = true) := by
    simp [enabled, alive, readable]
  unfold driveHttpRead acceptedPost
  rw [if_neg open_event]
  cases phase : hc.phase with
  | ReadingHeaders => exact readHeaders_logged enabled sys.recvs
  | ReadingPostBody => exact readPostBody_logged enabled sys.recvs
  | WritingResponse => exact absurd phase reading

/- An event gives the log the body of the POST it completes, and nothing else. -/
theorem handleEvent_logged (enabled : config.browserClientLogDir ≠ []) (sys : HttpAnswers)
    (e : Events) (hc : HttpConnection) :
    (handleEvent config sys e hc).logged = (acceptedPost config sys e hc).toList := by
  unfold handleEvent
  split
  · rename_i error
    rw [acceptedPost, if_pos (Or.inr (Or.inl error))]
    rfl
  rename_i alive
  have alive : e.EPOLLERR = false := by simpa using alive
  split
  · rename_i hangup
    simp only [Bool.and_eq_true, Bool.not_eq_true'] at hangup
    rw [acceptedPost, if_pos (Or.inr (Or.inr (by simp [hangup.1.2])))]
    rfl
  by_cases writing : hc.phase = .WritingResponse
  · have silent : acceptedPost config sys e hc = none := by
      unfold acceptedPost
      rw [writing]
      split
      · rfl
      · rfl
    rw [silent]
    split
    · rfl
    · rename_i hc' left
      have phase : hc'.phase = .WritingResponse := by
        split at left
        · rw [driveHttpWrite_phase _ left, writing]
        · rw [← Option.some.inj left, writing]
      rw [if_neg (by simp [phase])]
      rfl
  · rw [if_neg (by simp [writing])]
    dsimp only
    split
    · rename_i readable
      exact driveHttpRead_logged enabled sys alive readable.2 writing
    · rename_i closed
      have silent : e.EPOLLIN = false := by simpa [writing] using closed
      rw [acceptedPost, if_pos (Or.inr (Or.inr (by simp [silent])))]
      rfl

end

section
variable {args : RunArgs}

theorem served_silent (s : Loop) (r : Stepped) : (s.serve r).2.filterMap loggedLine = [] := by
  simp [Loop.serve, loggedLine]

theorem dispatchEvent_logged (enabled : args.http.browserClientLogDir ≠ []) (sys : DispatchAnswers)
    {s : Loop} {ev : Reported} {rest : List Reported} (between : s.between = true)
    (front : s.events = ev :: rest) :
    (dispatchEvent args sys s ev rest).2.filterMap loggedLine =
      (stepPost args s (.next sys)).toList := by
  simp only [stepPost, between, front]
  unfold dispatchEvent
  dsimp only
  by_cases timer : ev.fd = args.fds.timer_fd
  · rw [if_pos timer, if_pos (Or.inl timer)]
    split
    · exact served_silent _ _
    · rfl
  by_cases wake : ev.fd = args.fds.wake_fd
  · rw [if_neg timer, if_pos wake, if_pos (Or.inr (Or.inl wake))]
    split
    · exact served_silent _ _
    · rfl
  by_cases listens : some ev.fd = args.fds.http_listen_fd
  · rw [if_neg timer, if_neg wake, if_pos listens, if_pos (Or.inr (Or.inr listens))]
    rfl
  have client : ¬ (ev.fd = args.fds.timer_fd ∨ ev.fd = args.fds.wake_fd ∨
      some ev.fd = args.fds.http_listen_fd) := by
    rintro (first | second | third)
    · exact timer first
    · exact wake second
    · exact listens third
  rw [if_neg timer, if_neg wake, if_neg listens, if_neg client]
  cases s.http_conns.lookup ev.fd with
  | some h =>
    have lines := handleEvent_logged enabled sys.http ev.e h.connection
    rw [Option.bind_some, ← lines]
    simp only [List.filterMap_cons, loggedLine, List.filterMap_map]
    exact List.filterMap_some
  | none =>
    dsimp only
    split
    · rfl
    · cases s.server.conns.lookup ev.fd with
      | none => rfl
      | some c =>
        dsimp only
        split
        · rfl
        · exact served_silent _ _

theorem loopStep_logged (enabled : args.http.browserClientLogDir ≠ []) (s : Loop) (i : LoopInput) :
    (loopStep args s i).2.filterMap loggedLine = (stepPost args s i).toList := by
  unfold loopStep
  cases i with
  | epoll_wait events =>
    dsimp only
    split
    · rfl
    · rfl
  | next sys =>
    dsimp only
    split
    · rename_i between front
      exact dispatchEvent_logged enabled sys between front
    · rename_i other
      have silent : stepPost args s (.next sys) = none := by simp only [stepPost]
      rw [silent]
      rfl
  | accept cfd now added =>
    dsimp only
    split
    · rfl
    · split
      · rfl
      · rename_i listener _ _
        cases listener with
        | tls => exact served_silent _ _
        | http => cases added <;> rfl
  | acceptedAll => rfl
  | io sys => exact served_silent _ _
  | worker w sys => exact served_silent _ _

end

def Post.growth (p : Post) : Bytes :=
  if ensureDirForLog p.sys = true ∧ p.sys.good = true then (p.line ++ [10]).take p.sys.takes else []

theorem append_growth {log_dir : Bytes} (enabled : log_dir ≠ []) (p : Post) (file : Bytes) :
    (appendBrowserClientLogFile log_dir p.sys p.body file).2 = file ++ p.growth := by
  unfold appendBrowserClientLogFile Post.growth
  rw [if_neg enabled]
  cases ensureDirForLog p.sys with
  | false => simp
  | true =>
    cases p.sys.good with
    | false => simp
    | true => rfl

theorem logStep_file (args : RunArgs) (s : Logging) (i : LoopInput × AppendAnswers) :
    (logStep args s i).1.file =
      s.file ++ ((stepPost args s.loop i.1).toList.map (⟨·, i.2⟩)).flatMap Post.growth := by
  by_cases enabled : args.http.browserClientLogDir = []
  · -- the endpoint is off: no POST is accepted, and an append would write nothing
    have silent : stepPost args s.loop i.1 = none := by
      unfold stepPost
      split
      · split
        · split
          · rfl
          · cases s.loop.http_conns.lookup _ with
            | none => rfl
            | some h => exact if_pos (Or.inl enabled)
        · rfl
      · rfl
    have same (lines : List Bytes) (file : Bytes) : lines.foldl (fun file line =>
        (appendBrowserClientLogFile args.http.browserClientLogDir i.2 line file).2) file =
          file := by
      induction lines with
      | nil => rfl
      | cons line lines ih =>
        rw [List.foldl_cons, appendBrowserClientLogFile, if_pos enabled]
        exact ih
    rw [silent, logStep]
    simp [same]
  · simp only [logStep, loopStep_logged enabled]
    cases stepPost args s.loop i.1 with
    | none => simp
    | some body =>
      have grown := append_growth enabled ⟨body, i.2⟩ s.file
      simpa using grown

theorem run_file (args : RunArgs) (is : List (LoopInput × AppendAnswers)) (s : Logging) :
    (Run.final (logStep args) s is).file =
      s.file ++ (posts args s.loop is).flatMap Post.growth := by
  induction is generalizing s with
  | nil => simp [Run.final, posts]
  | cons i is ih =>
    have rest := ih (logStep args s i).1
    rw [logStep_file, List.append_assoc, ← List.flatMap_append] at rest
    exact rest

theorem zeroPadded_digits {width n : Nat} {b : UInt8} (member : b ∈ zeroPadded width n) :
    b ≠ 10 := by
  have digit : isDigit b = true := by
    rcases List.mem_append.mp member with zero | digit
    · rw [List.eq_of_mem_replicate zero]
      rfl
    · exact decimal_digits digit
  rintro rfl
  exact absurd digit (by decide)

theorem timestamp_plain (t : LocalTime) : (10 : UInt8) ∉ httpLogTimestamp t := by
  have number (n : Nat) : (10 : UInt8) ∉ decimal n :=
    fun member => absurd (decimal_digits member) (by decide)
  have padded (width n : Nat) : (10 : UInt8) ∉ zeroPadded width n :=
    fun member => zeroPadded_digits member rfl
  simp [httpLogTimestamp, number, padded]

/- The front of a line has no line end, so the body decides. -/
theorem line_single (p : Post) : (10 : UInt8) ∉ p.line ↔ ∀ b ∈ p.body, b ≠ 10 := by
  have front : (10 : UInt8) ∉ bytes "[" := by decide
  have level : (10 : UInt8) ∉ bytes "][信息] wss_browser:" := by decide
  simp only [Post.line, browserLine, List.mem_append, front, level, timestamp_plain, false_or]
  constructor
  · rintro absent b member rfl
    exact absent member
  · intro absent member
    exact absent 10 member rfl

theorem growth_whole (p : Post) : p.growth = p.line ++ [10] ↔ p.Written := by
  unfold Post.growth
  constructor
  · intro whole
    split at whole
    · rename_i opened
      have size := congrArg List.length whole
      simp only [List.length_take, List.length_append, List.length_singleton] at size
      exact ⟨opened.1, opened.2, by omega⟩
    · exact absurd whole.symm (by simp)
  · intro written
    rw [if_pos ⟨written.directory, written.opened⟩, List.take_of_length_le]
    simpa using written.whole

theorem growth_starts (p : Post) : p.growth <+: p.line ++ [10] := by
  unfold Post.growth
  split
  · exact List.take_prefix _ _
  · exact List.nil_prefix

theorem growth_lines (file : Bytes) (ps : List Post) :
    OneLineEach file (file ++ ps.flatMap Post.growth) ps ↔
      ∀ p ∈ ps, (∀ b ∈ p.body, b ≠ 10) ∧ p.Written := by
  have exactly : OneLineEach file (file ++ ps.flatMap Post.growth) ps ↔
      (ps.flatMap Post.growth).splitOn 10 = ps.map Post.line ++ [[]] := by
    constructor
    · rintro ⟨growth, same, lines⟩
      rwa [List.append_cancel_left same]
    · exact fun lines => ⟨_, rfl, lines⟩
  rw [exactly, CText.splitOn_lines_iff, List.flatMap_map,
    CText.flatMap_whole_iff fun p _ => growth_starts p, List.forall_mem_map]
  simp only [growth_whole, line_single]
  constructor
  · rintro ⟨written, single⟩ p member
    exact ⟨single p member, written p member⟩
  · intro fine
    exact ⟨fun p member => (fine p member).2, fun p member => (fine p member).1⟩

/-- Whatever browsers send over whichever connections, the file has one line for each accepted
    POST, in their order, exactly when no body holds a line end and every append was written
    whole. -/
theorem one_line_each_exact (args : RunArgs) (disk : FileSystem Bytes) (file : Bytes)
    (inputs : List (LoopInput × AppendAnswers)) :
    OneLineEach file (Run.final (logStep args) ⟨startLoop disk, file⟩ inputs).file
        (posts args (startLoop disk) inputs) ↔
      ∀ p ∈ posts args (startLoop disk) inputs, (∀ b ∈ p.body, b ≠ 10) ∧ p.Written := by
  rw [run_file]
  exact growth_lines file _

def logArgs : RunArgs where
  config := plainConfig
  http := ⟨[], bytes "log"⟩
  fds := ⟨1, 2, 3, some 4⟩

def roomy : AppendAnswers := ⟨.directory, .error, true, ⟨2026, 3, 22, 12, 0, 0, 123⟩, 4096⟩

def readableOn (fd : Nat) : LoopInput := .epoll_wait [(fd, { EPOLLIN := true })]

def arrives (data : Bytes) : LoopInput := .next ⟨0, [], fun _ => .missing, [.ret data], []⟩

/-- A body with a line end in it, whose second line looks like an entry of its own. -/
def forgingBody : Bytes := bytes "hi\n[2026-03-22 12:00:00.000][信息] wss_browser:bye"

def forgingRun : List (LoopInput × AppendAnswers) :=
  [readableOn 4, dispatchNow 0 [], .accept 5 0 true, .acceptedAll, readableOn 5,
    arrives (bytes "POST /__wss_browser_log HTTP/1.1\r\nContent-Length: 52\r\n\r\n"), readableOn 5,
    arrives forgingBody].map (⟨·, roomy⟩)

/-- Even when every append is written whole, a body brings in a second line. -/
theorem body_forges_line :
    ¬ ∀ (args : RunArgs) (disk : FileSystem Bytes) (file : Bytes)
        (inputs : List (LoopInput × AppendAnswers)),
      (∀ p ∈ posts args (startLoop disk) inputs, p.Written) →
        OneLineEach file (Run.final (logStep args) ⟨startLoop disk, file⟩ inputs).file
          (posts args (startLoop disk) inputs) := by
  intro claimed
  have accepted : posts logArgs (startLoop .empty) forgingRun = [⟨forgingBody, roomy⟩] := by
    decide +kernel
  have written : Post.Written ⟨forgingBody, roomy⟩ := ⟨rfl, rfl, by decide +kernel⟩
  have lines := claimed logArgs .empty [] forgingRun (by simpa [accepted] using written)
  rw [run_file, growth_lines, accepted] at lines
  exact (lines _ (List.mem_singleton_self _)).1 10 (by decide) rfl

end WssServer
