import WebsocketServer.Server.HttpResponder
import WebsocketServer.Ws.HeaderFields

/- Where a response of the HTTP port ends for the client that reads it. -/
namespace HttpResponder
open CString Upgrade WssServer

structure Response where
  status : Bytes
  headers : List Bytes
  body : Bytes
  plain : ∀ line ∈ status :: headers, ∀ b ∈ line, b ≠ 13 ∧ b ≠ 10
  filled : ∀ line ∈ headers, line ≠ []

namespace Response

def head (r : Response) : Bytes := (r.status :: r.headers).flatMap (· ++ kCRLF) ++ kCRLF

def bytes (r : Response) : Bytes := r.head ++ r.body

/-- The header lines that declare a length. -/
def lengths (r : Response) : List Bytes :=
  r.headers.filter fun line => toLower (line.takeWhile (· != 58)) == CString.bytes "content-length"

/-- One line declares the length of the body; or none does, and the status says that there is no
    body. -/
def Kept (r : Response) : Prop :=
  r.lengths = [CString.bytes "Content-Length: " ++ decimal r.body.length] ∨
    (r.lengths = [] ∧ r.status = CString.bytes "HTTP/1.1 204 No Content" ∧ r.body = [])

end Response

def Framed (response : Bytes) : Prop :=
  ∃ r : Response, r.bytes = response ∧ bytes "HTTP/1.1 " <+: r.status ∧ r.Kept

def LogPost (buf : Bytes) : Prop :=
  ∃ line_end method, lineEnd buf = some line_end ∧
    parseHttpRequestLine buf line_end = some (method, kBrowserLogHttpPath) ∧
    toLower method = bytes "post"

/-- What read_buf holds when the head is complete, unless it grew too large or recv failed before
    that. -/
def headRead : List RecvResult → Bytes → Option Bytes
  | [], _ | .again :: _, _ | .error :: _, _ => none
  | .ret data :: recvs, buf =>
      if data = [] then none
      else
        let buf := buf ++ data.take 4096
        if buf.length > 16384 then none
        else if (headerEnd buf).isSome then some buf
        else headRead recvs buf

def WritesFramed (d : Driven) : Prop :=
  ∀ hc, d.connection = .kept hc → hc.phase = .WritingResponse → Framed hc.write_buf

theorem plain_check {lines : List Bytes}
    (check : (lines.all fun line => line.all fun b => b != 13 && b != 10) = true) :
    ∀ line ∈ lines, ∀ b ∈ line, b ≠ 13 ∧ b ≠ 10 := by
  intro line member
  exact plain_bytes (List.all_eq_true.mp check line member)

theorem notFound_framed : Framed notFound := by
  refine ⟨⟨bytes "HTTP/1.1 404 Not Found", [bytes "Content-Type: text/plain; charset=utf-8",
    bytes "Connection: close", bytes "Content-Length: 9"], bytes "not found", plain_check ?_, ?_⟩,
    ?_, ?_, .inl ?_⟩ <;> decide +kernel

theorem bad_framed (hc : HttpConnection) : Framed (sendBadHttpRequest hc).write_buf := by
  change Framed (bytes "HTTP/1.1 400 Bad Request\r\nConnection: close\r\nContent-Length: 0\r\n\r\n")
  refine ⟨⟨bytes "HTTP/1.1 400 Bad Request", [bytes "Connection: close", bytes "Content-Length: 0"],
    [], plain_check ?_, ?_⟩, ?_, ?_, .inl ?_⟩ <;> decide +kernel

theorem favicon_framed : Framed noContent := by
  refine ⟨⟨bytes "HTTP/1.1 204 No Content", [bytes "Connection: close"], [], plain_check ?_, ?_⟩,
    ?_, ?_, .inr ?_⟩ <;> decide +kernel

theorem origin_framed (hc : HttpConnection) :
    Framed (sendHttp204CorsClose hc corsOrigin).write_buf := by
  change Framed
    (bytes "HTTP/1.1 204 No Content\r\nConnection: close\r\n" ++ corsOrigin ++ bytes "\r\n")
  refine ⟨⟨bytes "HTTP/1.1 204 No Content", [bytes "Connection: close",
    bytes "Access-Control-Allow-Origin: *"], [], plain_check ?_, ?_⟩, ?_, ?_, .inr ?_⟩ <;>
    decide +kernel

theorem preflight_framed (hc : HttpConnection) :
    Framed (sendHttp204CorsClose hc corsPreflight).write_buf := by
  change Framed
    (bytes "HTTP/1.1 204 No Content\r\nConnection: close\r\n" ++ corsPreflight ++ bytes "\r\n")
  refine ⟨⟨bytes "HTTP/1.1 204 No Content", [bytes "Connection: close",
    bytes "Access-Control-Allow-Origin: *", bytes "Access-Control-Allow-Methods: POST, OPTIONS",
    bytes "Access-Control-Allow-Headers: Content-Type"], [], plain_check ?_, ?_⟩,
    ?_, ?_, .inr ?_⟩ <;> decide +kernel

theorem decimal_plain {n : Nat} {b : UInt8} (member : b ∈ decimal n) : b ≠ 13 ∧ b ≠ 10 := by
  have digit := decimal_digits member
  constructor <;> rintro rfl <;> exact absurd digit (by decide)

def fileLines : List Bytes :=
  [bytes "HTTP/1.1 200 OK", bytes "Content-Type: text/html; charset=utf-8",
    bytes "Connection: close"]

theorem length_line (n : Nat) :
    (bytes "Content-Length: " ++ decimal n).takeWhile (· != 58) = bytes "Content-Length" := by
  have stops : ((bytes "Content-Length: ").takeWhile (· != 58)).length ≠
      (bytes "Content-Length: ").length := by decide
  rw [List.takeWhile_append, if_neg stops]
  decide

theorem file_framed (body : Bytes) : Framed (fileResponse body) := by
  have fixed : ∀ line ∈ bytes "Content-Length: " :: fileLines, ∀ b ∈ line, b ≠ 13 ∧ b ≠ 10 :=
    plain_check (by decide +kernel)
  have text : ∀ line ∈ fileLines, line ≠ [] := by decide +kernel
  refine ⟨⟨bytes "HTTP/1.1 200 OK",
    fileLines.tail ++ [bytes "Content-Length: " ++ decimal body.length], body, ?_, ?_⟩,
    ?_, ?_, .inl ?_⟩
  · intro line member b inside
    have cases : line ∈ fileLines ∨ line = bytes "Content-Length: " ++ decimal body.length := by
      simpa [fileLines, or_assoc] using member
    rcases cases with early | rfl
    · exact fixed line (List.mem_cons_of_mem _ early) b inside
    · rcases List.mem_append.mp inside with name | digit
      · exact fixed _ List.mem_cons_self b name
      · exact decimal_plain digit
  · intro line member
    rcases List.mem_append.mp member with early | last
    · exact text line (List.mem_of_mem_tail early)
    · rw [List.mem_singleton.mp last]
      simp [decimal_ne_nil]
  · have prefix_lines : bytes
        "HTTP/1.1 200 OK\r\nContent-Type: text/html; charset=utf-8\r\nConnection: close\r\n" =
        fileLines.flatMap (· ++ kCRLF) := by decide +kernel
    have terminator : kCRLFCRLF = kCRLF ++ kCRLF := by decide
    rw [fileResponse, prefix_lines, terminator]
    simp [Response.bytes, Response.head, fileLines]
  · have split : bytes "HTTP/1.1 " ++ bytes "200 OK" = bytes "HTTP/1.1 200 OK" := by decide
    exact ⟨bytes "200 OK", split⟩
  · have others : fileLines.tail.filter (fun line =>
        toLower (line.takeWhile (· != 58)) == bytes "content-length") = [] := by decide +kernel
    have name : toLower (bytes "Content-Length") = bytes "content-length" := by decide
    simp only [Response.lengths, List.filter_append, others, List.nil_append]
    simp only [List.filter_cons, length_line, name, beq_self_eq_true, ↓reduceIte, List.filter_nil]

theorem static_framed {files : Bytes → FileRead} {http_root url_path response : Bytes}
    (built : buildHttpStaticResponse files http_root url_path = some response) :
    Framed response := by
  simp only [buildHttpStaticResponse] at built
  generalize (if url_path = [] ∨ url_path = bytes "/" then bytes "/index.html" else url_path) = p
    at built
  split at built
  · exact Option.some.inj built ▸ notFound_framed
  · split at built
    · exact Option.some.inj built ▸ favicon_framed
    · cases read : files (fileName http_root p) with
      | missing =>
        rw [read] at built
        exact Option.some.inj built ▸ notFound_framed
      | content body =>
        rw [read] at built
        exact Option.some.inj built ▸ file_framed body
      | throws =>
        rw [read] at built
        contradiction

section
variable {r s : Response}

/- A response can be cut into its parts in one way only. -/
theorem parts_unique (same : r.bytes = s.bytes) :
    r.status = s.status ∧ r.headers = s.headers ∧ r.body = s.body := by
  have sizes : r.head.length = s.head.length := by
    have left : headEnd r.bytes = some r.head.length := headEnd_lines r.plain r.filled r.body
    have right : headEnd s.bytes = some s.head.length := headEnd_lines s.plain s.filled s.body
    rw [same, right] at left
    exact (Option.some.inj left).symm
  obtain ⟨heads, bodies⟩ := List.append_inj same sizes
  have lines := congrArg getLines heads
  simp only [Response.head] at lines
  rw [getLines_lines r.plain, getLines_lines s.plain] at lines
  have injective : Function.Injective fun line : Bytes => line ++ [13] := by
    intro a b equal
    exact List.append_cancel_right equal
  have texts := List.map_injective_iff.mpr injective (List.append_cancel_right lines)
  rw [List.cons.injEq] at texts
  exact ⟨texts.1, texts.2, bodies⟩

def disabledResponse : Response where
  status := bytes "HTTP/1.1 503 Service Unavailable"
  headers := [bytes "Connection: close", bytes "Content-Type: text/plain; charset=utf-8",
    bytes "Content-Length: 28"]
  body := bytes "browser log endpoint disabled"
  plain := plain_check (by decide +kernel)
  filled := by decide +kernel

theorem logDisabled_not_framed : ¬ Framed logDisabled := by
  rintro ⟨r, same, _, kept⟩
  have parts : disabledResponse.bytes = logDisabled := by decide +kernel
  obtain ⟨_, headers, body⟩ := parts_unique (same.trans parts.symm)
  rw [Response.Kept, Response.lengths, headers, body] at kept
  rcases kept with declared | ⟨silent, _⟩
  · exact absurd declared (by decide +kernel)
  · exact absurd silent (by decide +kernel)

end

section
variable {config : HttpConfig} {files : Bytes → FileRead} {hc : HttpConnection}

theorem writes_some (hc : HttpConnection) (logged : List Bytes) (framed : Framed hc.write_buf) :
    WritesFramed ⟨.kept hc, logged⟩ := by
  rintro _ ⟨⟩ _
  exact framed

theorem writes_later (logged : List Bytes) (reading : hc.phase ≠ .WritingResponse) :
    WritesFramed ⟨.kept hc, logged⟩ := by
  rintro _ ⟨⟩ writing
  exact absurd writing reading

theorem writes_closed (logged : List Bytes) : WritesFramed ⟨.closed, logged⟩ := by
  rintro _ ⟨⟩

theorem writes_threw (logged : List Bytes) : WritesFramed ⟨.threw, logged⟩ := by
  rintro _ ⟨⟩

theorem lineEnd_headerEnd {buf : Bytes} {header_end : Nat}
    (head : headerEnd buf = some header_end) :
    ∃ line_end ≤ header_end, lineEnd buf = some line_end := by
  induction buf generalizing header_end with
  | nil => simp [headerEnd] at head
  | cons b rest ih =>
    simp only [headerEnd] at head
    simp only [lineEnd]
    split
    · exact ⟨0, by omega, rfl⟩
    · rename_i apart
      split at head
      · rename_i terminator
        have bytes_here : kCRLFCRLF = [13, 10, 13, 10] := by decide
        rw [bytes_here] at terminator
        cases rest with
        | nil => simp at terminator
        | cons c rest =>
          simp only [List.take_succ_cons, List.cons.injEq] at terminator
          exact absurd ⟨terminator.1, by simp [terminator.2.1]⟩ apart
      · obtain ⟨n, outer, rfl⟩ := Option.map_eq_some_iff.mp head
        obtain ⟨k, order, inner⟩ := ih outer
        exact ⟨k + 1, by omega, by simp [inner]⟩

theorem answerPost_framed (header_end : Nat) :
    WritesFramed (answerPost config hc header_end) ↔ config.browserClientLogDir ≠ [] := by
  by_cases disabled : config.browserClientLogDir = []
  · simp only [answerPost, disabled, ↓reduceIte, ne_eq, not_true_eq_false, iff_false]
    intro framed
    exact logDisabled_not_framed (framed _ rfl rfl)
  · simp only [answerPost, disabled, ↓reduceIte, ne_eq, not_false_eq_true, iff_true]
    split
    · exact writes_some _ _ (bad_framed hc)
    · split
      · exact writes_some _ _ (bad_framed hc)
      · split
        · exact writes_some _ _ (origin_framed hc)
        · exact writes_later _ (fun writing => nomatch writing)

inductive Route where
  | bad
  | preflight
  | log
  | file (get_path : Bytes)

def route (buf : Bytes) : Route :=
  match lineEnd buf with
  | none => .bad
  | some line0_end =>
      match parseHttpRequestLine buf line0_end with
      | none => .bad
      | some (method, path) =>
          if path = kBrowserLogHttpPath ∧ toLower method = bytes "options" then .preflight
          else if path = kBrowserLogHttpPath ∧ toLower method = bytes "post" then .log
          else if toLower method ≠ bytes "get" then .bad
          else
            match parseGetPath buf with
            | none => .bad
            | some get_path => .file get_path

def answerRoute (config : HttpConfig) (files : Bytes → FileRead) (hc : HttpConnection)
    (header_end : Nat) : Route → Driven
  | .bad => ⟨.kept (sendBadHttpRequest hc), []⟩
  | .preflight => ⟨.kept { sendHttp204CorsClose hc corsPreflight with read_buf := [] }, []⟩
  | .log => answerPost config hc header_end
  | .file get_path =>
      match buildHttpStaticResponse files config.httpRoot get_path with
      | some response => ⟨.kept (respond hc response), []⟩
      | none => ⟨.threw, []⟩

theorem answerHead_route {header_end : Nat} (complete : headerEnd hc.read_buf = some header_end) :
    answerHead config files hc header_end =
      answerRoute config files hc header_end (route hc.read_buf) := by
  obtain ⟨line0_end, order, found⟩ := lineEnd_headerEnd complete
  have inside : ¬ line0_end > header_end := by omega
  simp only [answerHead, route, found, if_neg inside]
  cases parseHttpRequestLine hc.read_buf line0_end with
  | none => rfl
  | some words =>
    obtain ⟨method, path⟩ := words
    by_cases options : path = kBrowserLogHttpPath ∧ toLower method = bytes "options"
    · simp only [if_pos options, answerRoute]
    · by_cases post : path = kBrowserLogHttpPath ∧ toLower method = bytes "post"
      · simp only [if_neg options, if_pos post, answerRoute]
      · by_cases other : toLower method ≠ bytes "get"
        · simp only [if_neg options, if_neg post, if_pos other, answerRoute]
        · simp only [if_neg options, if_neg post, if_neg other]
          cases parseGetPath hc.read_buf with
          | none => rfl
          | some get_path => rfl

theorem route_log {buf : Bytes} : LogPost buf ↔ route buf = .log := by
  constructor
  · rintro ⟨line_end, method, found, parsed, lower⟩
    have apart : bytes "post" ≠ bytes "options" := by decide
    simp [route, found, parsed, lower, apart]
  · intro logged
    unfold route at logged
    split at logged
    · contradiction
    · rename_i line_end found
      split at logged
      · contradiction
      · rename_i method path parsed
        split at logged
        · contradiction
        · split at logged
          · rename_i post
            obtain ⟨rfl, lower⟩ := post
            exact ⟨line_end, method, found, parsed, lower⟩
          · split at logged
            · contradiction
            · split at logged <;> contradiction

theorem answerHead_framed {header_end : Nat} (complete : headerEnd hc.read_buf = some header_end) :
    WritesFramed (answerHead config files hc header_end) ↔
      ¬ (config.browserClientLogDir = [] ∧ LogPost hc.read_buf) := by
  rw [answerHead_route complete, route_log]
  cases route hc.read_buf with
  | bad => exact iff_of_true (writes_some _ [] (bad_framed hc)) (by simp)
  | preflight => exact iff_of_true (writes_some _ [] (preflight_framed hc)) (by simp)
  | log =>
    rw [answerRoute, answerPost_framed]
    simp
  | file get_path =>
    refine iff_of_true ?_ (by simp)
    rw [answerRoute]
    split
    · rename_i response built
      exact writes_some _ [] (static_framed built)
    · exact writes_threw []

theorem readHeaders_framed (recvs : List RecvResult) (reading : hc.phase ≠ .WritingResponse) :
    WritesFramed (readHeaders config files recvs hc) ↔
      ¬ (config.browserClientLogDir = [] ∧
        ∃ buf, headRead recvs hc.read_buf = some buf ∧ LogPost buf) := by
  induction recvs generalizing hc with
  | nil => simpa [readHeaders, headRead] using writes_later [] reading
  | cons result recvs ih =>
    cases result with
    | again => simpa [readHeaders, headRead] using writes_later [] reading
    | error => simpa [readHeaders, headRead] using writes_closed []
    | ret data =>
      by_cases ended : data = []
      · simpa [readHeaders, headRead, ended] using writes_closed []
      · simp only [readHeaders, headRead, ended, ↓reduceIte]
        split
        · exact iff_of_true (writes_some _ _ (bad_framed _)) (by simp)
        · split
          · rename_i header_end complete
            rw [answerHead_framed complete]
            simp [complete]
          · rename_i incomplete
            have rest := @ih { hc with read_buf := hc.read_buf ++ data.take 4096 } reading
            simpa [incomplete] using rest

theorem readPostBody_framed (recvs : List RecvResult) (reading : hc.phase ≠ .WritingResponse) :
    WritesFramed (readPostBody config recvs hc) := by
  induction recvs generalizing hc with
  | nil => exact writes_later [] reading
  | cons result recvs ih =>
    cases result with
    | again => exact writes_later [] reading
    | error => exact writes_closed []
    | ret data =>
      simp only [readPostBody]
      split
      · exact writes_closed []
      · split
        · exact writes_some _ _ (bad_framed hc)
        · split
          · exact writes_some _ _ (origin_framed hc)
          · exact ih reading

end

/- Every response is framed but the one to a POST to the browser log while the log is off. -/
theorem responses_framed_exact (config : HttpConfig) (sys : HttpAnswers) (hc : HttpConnection)
    (reading : hc.phase ≠ .WritingResponse) :
    WritesFramed (driveHttpRead config sys hc) ↔
      ¬ (config.browserClientLogDir = [] ∧ hc.phase = .ReadingHeaders ∧
        ∃ buf, headRead sys.recvs hc.read_buf = some buf ∧ LogPost buf) := by
  unfold driveHttpRead
  by_cases body : hc.phase = .ReadingPostBody
  · rw [if_pos body]
    refine iff_of_true (readPostBody_framed sys.recvs reading) ?_
    rintro ⟨_, headers, _⟩
    rw [body] at headers
    contradiction
  · have headers : hc.phase = .ReadingHeaders := by
      cases phase : hc.phase with
      | ReadingHeaders => rfl
      | ReadingPostBody => exact absurd phase body
      | WritingResponse => exact absurd phase reading
    rw [if_neg body, readHeaders_framed sys.recvs reading]
    simp [headers]

def logRequest : HttpAnswers :=
  ⟨fun _ => .missing, [.ret (bytes "POST /__wss_browser_log HTTP/1.1\r\n\r\n")], []⟩

theorem log_request_framed : WritesFramed (driveHttpRead ⟨[], bytes "log"⟩ logRequest {}) :=
  (responses_framed_exact ⟨[], bytes "log"⟩ logRequest {} (by decide)).mpr
    fun disabled => absurd disabled.1 (by decide)

theorem log_refusal_misframed :
    ¬ ∀ (config : HttpConfig) (sys : HttpAnswers) (hc : HttpConnection),
        hc.phase ≠ .WritingResponse → WritesFramed (driveHttpRead config sys hc) := by
  intro claimed
  have framed := claimed ⟨[], []⟩ logRequest {} (by decide) (respond {} logDisabled)
    (by decide +kernel) rfl
  exact logDisabled_not_framed framed

end HttpResponder
