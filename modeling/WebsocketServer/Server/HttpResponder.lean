import WebsocketServer.Server.EventLoop

/- The plain HTTP port: one request for each connection, answered and closed. The answers to
   recv and send are inputs, and so are the files under the root. -/
namespace HttpResponder
open CString Upgrade WssServer

inductive Phase where
  | ReadingHeaders
  | ReadingPostBody
  | WritingResponse
  deriving DecidableEq

structure HttpConnection where
  read_buf : Bytes := []
  post_body_accum : Bytes := []
  post_content_length : Nat := 0
  write_buf : Bytes := []
  write_off : Nat := 0
  phase : Phase := .ReadingHeaders
  deriving DecidableEq

structure HttpConfig where
  httpRoot : Bytes
  browserClientLogDir : Bytes

/-- The bytes recv returned; none at all is the end of the peer. -/
inductive RecvResult where
  | ret (data : Bytes)
  | again
  | error

inductive SendResult where
  | ret (n : Nat)
  | again
  | error

/-- What an ifstream makes of a name. A directory can be opened, but its first read throws. -/
inductive FileRead where
  | missing
  | content (body : Bytes)
  | throws

/-- The files, and the answers to the socket calls. The last of them is followed by EAGAIN. -/
structure HttpAnswers where
  files : Bytes → FileRead
  recvs : List RecvResult
  sends : List SendResult

/-- Nothing catches an exception before run() does, which then returns. -/
inductive Outcome (α : Type) where
  | kept (hc : α)
  | closed
  | threw
  deriving DecidableEq

def Outcome.map {α β : Type} (f : α → β) : Outcome α → Outcome β
  | .kept hc => .kept (f hc)
  | .closed => .closed
  | .threw => .threw

/-- What becomes of the connection, and the lines given to the browser log. -/
structure Driven where
  connection : Outcome HttpConnection
  logged : List Bytes

/-- The first "\r\n". -/
def lineEnd : Bytes → Option Nat
  | [] => none
  | b :: rest => if b = 13 ∧ rest.head? = some 10 then some 0 else (lineEnd rest).map (· + 1)

/-- The first "\r\n\r\n". -/
def headerEnd : Bytes → Option Nat
  | [] => none
  | b :: rest =>
      if (b :: rest).take 4 = kCRLFCRLF then some 0 else (headerEnd rest).map (· + 1)

/-- What stands between blanks; nothing when no blank follows. -/
def nextWord (line : Bytes) : Option Bytes :=
  let rest := line.dropWhile (· == 32)
  (rest.findIdx? (· == 32)).map rest.take

def parseGetPath (buf : Bytes) : Option Bytes :=
  match lineEnd buf with
  | none => none
  | some line_end =>
      let line := buf.take line_end
      if line.take 4 = bytes "GET " then nextWord (line.drop 4) else none

def parseHttpRequestLine (buf : Bytes) (line_end : Nat) : Option (Bytes × Bytes) :=
  if line_end + 1 ≥ buf.length then none
  else
    let line := buf.take line_end
    match line.findIdx? (· == 32) with
    | none => none
    | some sp1 =>
        if sp1 = 0 then none
        else (nextWord (line.drop (sp1 + 1))).map fun path => (line.take sp1, path)

def kBrowserLogHttpPath : Bytes := bytes "/__wss_browser_log"
def kMaxBrowserLogBody : Nat := 4096

/-- The first Content-Length decides, also when its value is no number. -/
def parseContentLengthHeader (header_block : Bytes) : Option Nat :=
  ((getLines header_block).findSome? fun raw =>
    let hline := chomp raw
    match hline.findIdx? (· == 58) with
    | none => none
    | some ci =>
        if toLower (hline.take ci) = bytes "content-length" then
          let value := (hline.drop (ci + 1)).dropWhile fun b => b == 32 || b == 9
          some (stoul (value.map fun b => Char.ofNat b.toNat))
        else none).join

def notFound : Bytes :=
  bytes "HTTP/1.1 404 Not Found\r\nContent-Type: text/plain; charset=utf-8\r\nConnection: " ++
    bytes "close\r\nContent-Length: 9\r\n\r\nnot found"

def hasDotDot : Bytes → Bool
  | [] => false
  | b :: rest => (b == 46 && rest.head? == some 46) || hasDotDot rest

/-- The name passed to the ifstream; a NUL byte ends it. -/
def fileName (http_root p : Bytes) : Bytes :=
  let p := if p.head? = some 47 then p.tail else p
  let root := if http_root ≠ [] ∧ http_root.getLast? ≠ some 47 then http_root ++ [47] else http_root
  (root ++ p).takeWhile (· != 0)

def noContent : Bytes := bytes "HTTP/1.1 204 No Content\r\nConnection: close\r\n\r\n"

def fileResponse (body : Bytes) : Bytes :=
  bytes "HTTP/1.1 200 OK\r\nContent-Type: text/html; charset=utf-8\r\nConnection: close\r\n" ++
    bytes "Content-Length: " ++ decimal body.length ++ kCRLFCRLF ++ body

def FileRead.response : FileRead → Option Bytes
  | .missing => some notFound
  | .content body => some (fileResponse body)
  | .throws => none

def buildHttpStaticResponse (files : Bytes → FileRead) (http_root url_path : Bytes) :
    Option Bytes :=
  let p := if url_path = [] ∨ url_path = bytes "/" then bytes "/index.html" else url_path
  if hasDotDot p then some notFound
  else if p = bytes "/favicon.ico" then some noContent
  else (files (fileName http_root p)).response

def respond (hc : HttpConnection) (write_buf : Bytes) : HttpConnection :=
  { hc with write_buf, write_off := 0, phase := .WritingResponse }

def sendBadHttpRequest (hc : HttpConnection) : HttpConnection :=
  respond hc (bytes "HTTP/1.1 400 Bad Request\r\nConnection: close\r\nContent-Length: 0\r\n\r\n")

def sendHttp204CorsClose (hc : HttpConnection) (extra_headers : Bytes) : HttpConnection :=
  respond hc
    (bytes "HTTP/1.1 204 No Content\r\nConnection: close\r\n" ++ extra_headers ++ bytes "\r\n")

def corsOrigin : Bytes := bytes "Access-Control-Allow-Origin: *\r\n"

def corsPreflight : Bytes :=
  corsOrigin ++ bytes "Access-Control-Allow-Methods: POST, OPTIONS\r\n" ++
    bytes "Access-Control-Allow-Headers: Content-Type\r\n"

def logDisabled : Bytes :=
  bytes "HTTP/1.1 503 Service Unavailable\r\nConnection: close\r\nContent-Type: text/plain; " ++
    bytes "charset=utf-8\r\nContent-Length: 28\r\n\r\nbrowser log endpoint disabled"

/-- The for loop of driveHttpRead while it collects the body of a POST. -/
def readPostBody (config : HttpConfig) : List RecvResult → HttpConnection → Driven
  | [], hc | .again :: _, hc => ⟨.kept hc, []⟩
  | .error :: _, _ => ⟨.closed, []⟩
  | .ret data :: recvs, hc =>
      if data = [] then ⟨.closed, []⟩
      else
        let hc := { hc with post_body_accum := hc.post_body_accum ++ data.take 4096 }
        if hc.post_body_accum.length > kMaxBrowserLogBody then ⟨.kept (sendBadHttpRequest hc), []⟩
        else if hc.post_body_accum.length ≥ hc.post_content_length then
          ⟨.kept { sendHttp204CorsClose hc corsOrigin with read_buf := [], post_body_accum := [] },
            if config.browserClientLogDir = [] then []
            else [hc.post_body_accum.take hc.post_content_length]⟩
        else readPostBody config recvs hc

/-- A POST to the browser log whose head ends at header_end. -/
def answerPost (config : HttpConfig) (hc : HttpConnection) (header_end : Nat) : Driven :=
  if config.browserClientLogDir = [] then ⟨.kept { respond hc logDisabled with read_buf := [] }, []⟩
  else
    match parseContentLengthHeader (hc.read_buf.take header_end) with
    | none => ⟨.kept (sendBadHttpRequest hc), []⟩
    | some cl =>
        if cl = 0 ∨ cl > kMaxBrowserLogBody then ⟨.kept (sendBadHttpRequest hc), []⟩
        else
          let body := hc.read_buf.drop (header_end + 4)
          if body.length ≥ cl then
            ⟨.kept { sendHttp204CorsClose hc corsOrigin with read_buf := [] }, [body.take cl]⟩
          else
            ⟨.kept { hc with
                post_content_length := cl, post_body_accum := body, read_buf := []
                phase := .ReadingPostBody }, []⟩

def answerHead (config : HttpConfig) (files : Bytes → FileRead) (hc : HttpConnection)
    (header_end : Nat) : Driven :=
  match lineEnd hc.read_buf with
  | none => ⟨.kept (sendBadHttpRequest hc), []⟩
  | some line0_end =>
      if line0_end > header_end then ⟨.kept (sendBadHttpRequest hc), []⟩
      else
        match parseHttpRequestLine hc.read_buf line0_end with
        | none => ⟨.kept (sendBadHttpRequest hc), []⟩
        | some (method, path) =>
            let method := toLower method
            if path = kBrowserLogHttpPath ∧ method = bytes "options" then
              ⟨.kept { sendHttp204CorsClose hc corsPreflight with read_buf := [] }, []⟩
            else if path = kBrowserLogHttpPath ∧ method = bytes "post" then
              answerPost config hc header_end
            else if method ≠ bytes "get" then ⟨.kept (sendBadHttpRequest hc), []⟩
            else
              match parseGetPath hc.read_buf with
              | none => ⟨.kept (sendBadHttpRequest hc), []⟩
              | some get_path =>
                  match buildHttpStaticResponse files config.httpRoot get_path with
                  | some response => ⟨.kept (respond hc response), []⟩
                  | none => ⟨.threw, []⟩

/-- The for loop of driveHttpRead while it collects the head. -/
def readHeaders (config : HttpConfig) (files : Bytes → FileRead) :
    List RecvResult → HttpConnection → Driven
  | [], hc | .again :: _, hc => ⟨.kept hc, []⟩
  | .error :: _, _ => ⟨.closed, []⟩
  | .ret data :: recvs, hc =>
      if data = [] then ⟨.closed, []⟩
      else
        let hc := { hc with read_buf := hc.read_buf ++ data.take 4096 }
        if hc.read_buf.length > 16384 then ⟨.kept (sendBadHttpRequest hc), []⟩
        else
          match headerEnd hc.read_buf with
          | some header_end => answerHead config files hc header_end
          | none => readHeaders config files recvs hc

def driveHttpRead (config : HttpConfig) (sys : HttpAnswers) (hc : HttpConnection) : Driven :=
  if hc.phase = .ReadingPostBody then readPostBody config sys.recvs hc
  else readHeaders config sys.files sys.recvs hc

/-- None once everything is sent, or when send fails. -/
def driveHttpWrite : List SendResult → HttpConnection → Option HttpConnection
  | [], hc | .again :: _, hc => if hc.write_off < hc.write_buf.length then some hc else none
  | .error :: _, _ => none
  | .ret n :: sends, hc =>
      if hc.write_off < hc.write_buf.length then
        driveHttpWrite sends
          { hc with
            write_off := hc.write_off + min (max n 1) (hc.write_buf.length - hc.write_off) }
      else none

def handleEvent (config : HttpConfig) (sys : HttpAnswers) (e : Events) (hc : HttpConnection) :
    Driven :=
  if e.EPOLLERR then ⟨.closed, []⟩
  else if (e.EPOLLHUP || e.EPOLLRDHUP) && !e.EPOLLIN && !e.EPOLLOUT then ⟨.closed, []⟩
  else
    match
      if hc.phase = .WritingResponse ∧ e.EPOLLOUT then driveHttpWrite sys.sends hc
      else some hc with
    | none => ⟨.closed, []⟩
    | some hc =>
        if hc.phase ≠ .WritingResponse ∧ e.EPOLLIN then driveHttpRead config sys hc
        else ⟨.kept hc, []⟩

/- A head and the beginning of a body in two pieces, then the rest of the body. -/
example :
    let config : HttpConfig := ⟨[], bytes "log"⟩
    let pieces : List RecvResult := [.ret (bytes "POST /__wss_browser_log HTTP/1.1\r\n"),
      .ret (bytes "Content-Length: 3\r\n\r\na")]
    let first := driveHttpRead config ⟨fun _ => .missing, pieces, []⟩ {}
    let second := first.connection.map
      (driveHttpRead config ⟨fun _ => .missing, [.ret (bytes "bc")], []⟩)
    second.map (·.logged) = .kept [bytes "abc"] := by
  decide +kernel

/- The root of the files joined with "." is a directory. -/
example :
    let files : Bytes → FileRead := fun name => if name = bytes "web/." then .throws else .missing
    let recvs : List RecvResult := [.ret (bytes "GET /. HTTP/1.1\r\n\r\n")]
    (driveHttpRead ⟨bytes "web", []⟩ ⟨files, recvs, []⟩ {}).connection = .threw := by
  decide +kernel

end HttpResponder
