import WebsocketServer.Server.HttpFraming

/- How a request is cut into recv results does not show in the answer to it. -/
namespace HttpResponder
open CString Upgrade WssServer

/-- The head asks for a body of this length to be logged. -/
def Announces (head : Bytes) (header_end cl : Nat) : Prop :=
  LogPost head ∧ parseContentLengthHeader (head.take header_end) = some cl ∧
    0 < cl ∧ cl ≤ kMaxBrowserLogBody

/-- A head up to its first blank line and what is sent behind it, which is no more than the head
    announces. -/
structure Request where
  head : Bytes
  header_end : Nat
  body : Bytes
  ended : headerEnd head = some header_end
  whole : head.length = header_end + 4
  size : (head ++ body).length ≤ 16384
  owed : ∀ cl, Announces head header_end cl → body.length ≤ cl

/-- What a client and the log can see of a connection. -/
structure Answer where
  shown : Outcome (Phase × Bytes)
  logged : List Bytes
  deriving DecidableEq

def Driven.answer (d : Driven) : Answer :=
  ⟨d.connection.map fun hc => (hc.phase, hc.write_buf), d.logged⟩

/-- The response is there to be written, or the server has ended. -/
def Answer.Settled (a : Answer) : Prop :=
  a.shown = .threw ∨ ∃ write_buf, a.shown = .kept (.WritingResponse, write_buf)

namespace Request

def bytes (r : Request) : Bytes := r.head ++ r.body

def Complete (r : Request) : Prop := ∀ cl, Announces r.head r.header_end cl → r.body.length = cl

def answer (config : HttpConfig) (files : Bytes → FileRead) (r : Request) : Answer :=
  (answerHead config files { read_buf := r.bytes } r.header_end).answer

/-- A GET of something that can be opened but not read. -/
def Unreadable (config : HttpConfig) (files : Bytes → FileRead) (r : Request) : Prop :=
  ∃ get_path, route r.head = .file get_path ∧
    buildHttpStaticResponse files config.httpRoot get_path = none

end Request

def received : RecvResult → Bytes
  | .ret data => data
  | .again | .error => []

/-- A result of recv while the peer keeps the connection open. -/
def Piece : RecvResult → Prop
  | .ret data => 0 < data.length ∧ data.length ≤ 4096
  | .again => True
  | .error => False

/-- The request in pieces, with EAGAIN between any of them. -/
def Carries (request : Bytes) (recvs : List RecvResult) : Prop :=
  recvs.flatMap received = request ∧ ∀ result ∈ recvs, Piece result

def headersRest : List RecvResult → Bytes → List RecvResult
  | [], _ => []
  | .again :: recvs, _ | .error :: recvs, _ => recvs
  | .ret data :: recvs, buf =>
      if data = [] then recvs
      else
        let buf := buf ++ data.take 4096
        if buf.length > 16384 ∨ (headerEnd buf).isSome then recvs else headersRest recvs buf

def bodyRest (cl : Nat) : List RecvResult → Bytes → List RecvResult
  | [], _ => []
  | .again :: recvs, _ | .error :: recvs, _ => recvs
  | .ret data :: recvs, accum =>
      if data = [] then recvs
      else
        let accum := accum ++ data.take 4096
        if accum.length > kMaxBrowserLogBody ∨ accum.length ≥ cl then recvs
        else bodyRest cl recvs accum

def restAfter (recvs : List RecvResult) (hc : HttpConnection) : List RecvResult :=
  match hc.phase with
  | .ReadingHeaders => headersRest recvs hc.read_buf
  | .ReadingPostBody => bodyRest hc.post_content_length recvs hc.post_body_accum
  | .WritingResponse => recvs

/-- A connection, the lines logged since it was accepted, and what recv will return. -/
structure Serving where
  driven : Driven
  recvs : List RecvResult

def nextEvent (config : HttpConfig) (files : Bytes → FileRead) (s : Serving) : Serving :=
  match s.driven.connection with
  | .closed | .threw => s
  | .kept hc =>
      let d := handleEvent config ⟨files, s.recvs, []⟩ { EPOLLIN := true } hc
      ⟨⟨d.connection, s.driven.logged ++ d.logged⟩, restAfter s.recvs hc⟩

def accepted (recvs : List RecvResult) : Serving := ⟨⟨.kept {}, []⟩, recvs⟩

def Waiting (s : Serving) : Prop :=
  (∃ phase ≠ .WritingResponse, s.driven.answer = ⟨.kept (phase, []), []⟩) ∧
    s.recvs.flatMap received ≠ []

theorem headEnd_headerEnd (buf : Bytes) : headEnd buf = (headerEnd buf).map (· + 4) := by
  induction buf with
  | nil => rfl
  | cons b rest ih =>
    simp only [headEnd, headerEnd]
    split
    · rfl
    · rw [ih, Option.map_map, Option.map_map]
      congr 1

theorem headerEnd_grow {buf : Bytes} {n : Nat} (more : Bytes) (found : headerEnd buf = some n) :
    headerEnd (buf ++ more) = some n := by
  have ends : headEnd buf = some (n + 4) := by rw [headEnd_headerEnd, found]; rfl
  have grown := headEnd_grow more ends
  rw [headEnd_headerEnd, Option.map_eq_some_iff] at grown
  obtain ⟨k, grown, same⟩ := grown
  rw [grown, Nat.add_right_cancel same]

theorem headerEnd_room {buf : Bytes} {n : Nat} (found : headerEnd buf = some n) :
    n + 4 ≤ buf.length := by
  have ends : headEnd buf = some (n + 4) := by rw [headEnd_headerEnd, found]; rfl
  exact (headEnd_bounds ends).2

theorem lineEnd_grow {buf : Bytes} {n : Nat} (more : Bytes) (found : lineEnd buf = some n) :
    lineEnd (buf ++ more) = some n := by
  induction buf generalizing n with
  | nil => simp [lineEnd] at found
  | cons b rest ih =>
    simp only [lineEnd] at found
    simp only [List.cons_append, lineEnd]
    split at found
    · rename_i ends
      cases rest with
      | nil => simp at ends
      | cons c rest =>
        have ends' : b = 13 ∧ (c :: rest ++ more).head? = some 10 := ends
        rw [if_pos ends', found]
    · rename_i apart
      obtain ⟨k, inner, rfl⟩ := Option.map_eq_some_iff.mp found
      cases rest with
      | nil => simp [lineEnd] at inner
      | cons c rest =>
        have apart' : ¬ (b = 13 ∧ (c :: rest ++ more).head? = some 10) := by simpa using apart
        rw [if_neg apart', ih inner]
        rfl

section
variable {config : HttpConfig} {files : Bytes → FileRead} {r : Request} {hc : HttpConnection}
  {recvs : List RecvResult} {part : Bytes}

/- The blank line is complete once the head of the request is there, and not before. -/
theorem head_complete {buf more : Bytes} {n : Nat} (found : headerEnd buf = some n)
    (stream : buf ++ more = r.bytes) :
    n = r.header_end ∧ ∃ part, buf = r.head ++ part ∧ part ++ more = r.body := by
  have same : n = r.header_end := by
    have left := headerEnd_grow more found
    have right := headerEnd_grow r.body r.ended
    rw [stream, Request.bytes, right] at left
    exact (Option.some.inj left).symm
  have room := headerEnd_room found
  have front : r.head <+: buf := by
    refine List.prefix_of_prefix_length_le ?_ (List.prefix_append buf more) ?_
    · rw [stream]
      exact List.prefix_append _ _
    · rw [r.whole, ← same]
      exact room
  obtain ⟨part, shape⟩ := front
  refine ⟨same, part, shape.symm, ?_⟩
  rw [← shape, Request.bytes, List.append_assoc] at stream
  exact List.append_cancel_left stream

/- What the dispatch reads of the head does not depend on what follows it. -/
theorem route_head (r : Request) (part : Bytes) : route (r.head ++ part) = route r.head := by
  obtain ⟨line0_end, order, found⟩ := lineEnd_headerEnd r.ended
  have room : line0_end + 4 ≤ r.head.length := by
    rw [r.whole]
    omega
  have grown := lineEnd_grow part found
  have line : (r.head ++ part).take line0_end = r.head.take line0_end :=
    List.take_append_of_le_length (by omega)
  have inside : ¬ line0_end + 1 ≥ r.head.length := by omega
  have inside' : ¬ line0_end + 1 ≥ (r.head ++ part).length := by
    rw [List.length_append]
    omega
  simp only [route, grown, found, parseHttpRequestLine, parseGetPath, if_neg inside, if_neg inside',
    line]

theorem answerHead_routed (shape : hc.read_buf = r.head ++ part) :
    answerHead config files hc r.header_end =
      answerRoute config files hc r.header_end (route r.head) := by
  have complete := headerEnd_grow part r.ended
  rw [← shape] at complete
  rw [answerHead_route complete, shape, route_head]

theorem answerHead_unreadable (unreadable : r.Unreadable config files)
    (shape : hc.read_buf = r.head ++ part) :
    answerHead config files hc r.header_end = ⟨.threw, []⟩ := by
  obtain ⟨get_path, way, throws⟩ := unreadable
  rw [answerHead_routed shape, way, answerRoute, throws]

theorem answerHead_fixed (readable : ¬ r.Unreadable config files)
    (fixed : ¬ (config.browserClientLogDir ≠ [] ∧ ∃ cl, Announces r.head r.header_end cl)) :
    ∃ write_buf, ∀ hc part, hc.read_buf = r.head ++ part →
      (answerHead config files hc r.header_end).answer =
        ⟨.kept (.WritingResponse, write_buf), []⟩ := by
  cases way : route r.head with
  | bad =>
    refine ⟨(sendBadHttpRequest {}).write_buf, fun hc part shape => ?_⟩
    rw [answerHead_routed shape, way]
    rfl
  | preflight =>
    refine ⟨(sendHttp204CorsClose {} corsPreflight).write_buf, fun hc part shape => ?_⟩
    rw [answerHead_routed shape, way]
    rfl
  | file get_path =>
    cases built : buildHttpStaticResponse files config.httpRoot get_path with
    | none => exact absurd ⟨get_path, way, built⟩ readable
    | some response =>
      refine ⟨response, fun hc part shape => ?_⟩
      rw [answerHead_routed shape, way, answerRoute, built]
      rfl
  | log =>
    by_cases disabled : config.browserClientLogDir = []
    · refine ⟨logDisabled, fun hc part shape => ?_⟩
      rw [answerHead_routed shape, way, answerRoute, answerPost, if_pos disabled]
      rfl
    · refine ⟨(sendBadHttpRequest {}).write_buf, fun hc part shape => ?_⟩
      rw [answerHead_routed shape, way, answerRoute, answerPost, if_neg disabled, shape,
        List.take_append_of_le_length (by rw [r.whole]; omega)]
      cases length : parseContentLengthHeader (r.head.take r.header_end) with
      | none => rfl
      | some cl =>
        have outside : cl = 0 ∨ cl > kMaxBrowserLogBody := by
          by_contra sized
          exact fixed ⟨disabled, cl, route_log.mpr way, length, by omega, by omega⟩
        simp only [if_pos outside]
        rfl

theorem answerHead_body {cl : Nat} (on : config.browserClientLogDir ≠ [])
    (announced : Announces r.head r.header_end cl) (shape : hc.read_buf = r.head ++ part) :
    answerHead config files hc r.header_end =
      if part.length ≥ cl then
        ⟨.kept { sendHttp204CorsClose hc corsOrigin with read_buf := [] }, [part.take cl]⟩
      else
        ⟨.kept { hc with
            post_content_length := cl, post_body_accum := part, read_buf := []
            phase := .ReadingPostBody }, []⟩ := by
  obtain ⟨posted, length, positive, bounded⟩ := announced
  have inside : ¬ (cl = 0 ∨ cl > kMaxBrowserLogBody) := by omega
  have behind : (r.head ++ part).drop (r.header_end + 4) = part := by
    rw [← r.whole, List.drop_left]
  rw [answerHead_routed shape, route_log.mp posted, answerRoute, answerPost, if_neg on, shape,
    List.take_append_of_le_length (by rw [r.whole]; omega), length]
  simp only [if_neg inside, behind]

theorem answer_body {cl : Nat} (on : config.browserClientLogDir ≠ [])
    (announced : Announces r.head r.header_end cl) :
    r.answer config files =
      if r.body.length ≥ cl then
        ⟨.kept (.WritingResponse, (sendHttp204CorsClose {} corsOrigin).write_buf), [r.body.take cl]⟩
      else ⟨.kept (.ReadingPostBody, []), []⟩ := by
  have shape : ({ read_buf := r.bytes } : HttpConnection).read_buf = r.head ++ r.body := rfl
  rw [Request.answer, answerHead_body on announced shape]
  split <;> rfl

theorem answer_unreadable (unreadable : r.Unreadable config files) :
    r.answer config files = ⟨.threw, []⟩ := by
  have shape : ({ read_buf := r.bytes } : HttpConnection).read_buf = r.head ++ r.body := rfl
  rw [Request.answer, answerHead_unreadable unreadable shape]
  rfl

inductive Progress (config : HttpConfig) (files : Bytes → FileRead) (r : Request) :
    Driven → List RecvResult → Prop
  | head (hc : HttpConnection) (recvs : List RecvResult) (phase : hc.phase = .ReadingHeaders)
      (silent : hc.write_buf = []) (incomplete : headerEnd hc.read_buf = none)
      (stream : hc.read_buf ++ recvs.flatMap received = r.bytes) :
      Progress config files r ⟨.kept hc, []⟩ recvs
  | body (hc : HttpConnection) (recvs : List RecvResult) (phase : hc.phase = .ReadingPostBody)
      (silent : hc.write_buf = []) (on : config.browserClientLogDir ≠ [])
      (announced : Announces r.head r.header_end hc.post_content_length)
      (short : hc.post_body_accum.length < hc.post_content_length)
      (stream : hc.post_body_accum ++ recvs.flatMap received = r.body) :
      Progress config files r ⟨.kept hc, []⟩ recvs
  | done (d : Driven) (recvs : List RecvResult) (settled : d.answer.Settled)
      (same : d.answer = r.answer config files) : Progress config files r d recvs

theorem answerHead_progress (silent : hc.write_buf = []) (shape : hc.read_buf = r.head ++ part)
    (stream : part ++ recvs.flatMap received = r.body) :
    Progress config files r (answerHead config files hc r.header_end) recvs := by
  by_cases waits : config.browserClientLogDir ≠ [] ∧ ∃ cl, Announces r.head r.header_end cl
  · obtain ⟨on, cl, announced⟩ := waits
    have owed := r.owed cl announced
    have sizes := congrArg List.length stream
    rw [List.length_append] at sizes
    rw [answerHead_body on announced shape]
    split
    · rename_i enough
      have complete : r.body = part := by
        have last : recvs.flatMap received = [] := List.eq_nil_of_length_eq_zero (by omega)
        rw [← stream, last, List.append_nil]
      refine .done _ _ (.inr ⟨_, rfl⟩) ?_
      rw [answer_body on announced, complete, if_pos enough]
      rfl
    · rename_i short
      exact .body _ _ rfl silent on announced (Nat.lt_of_not_ge short) stream
  · by_cases unreadable : r.Unreadable config files
    · have here : (answerHead config files hc r.header_end).answer = ⟨.threw, []⟩ :=
        congrArg Driven.answer (answerHead_unreadable unreadable shape)
      exact .done _ recvs (.inl (congrArg Answer.shown here))
        (here.trans (answer_unreadable unreadable).symm)
    · obtain ⟨write_buf, fixed⟩ := answerHead_fixed unreadable waits
      have here := fixed hc part shape
      have whole := fixed { read_buf := r.bytes } r.body rfl
      exact .done _ recvs (.inr ⟨write_buf, congrArg Answer.shown here⟩) (here.trans whole.symm)

theorem piece_whole {data : Bytes} (piece : Piece (.ret data)) :
    data ≠ [] ∧ data.take 4096 = data :=
  ⟨List.ne_nil_of_length_pos piece.1, List.take_of_length_le piece.2⟩

theorem readHeaders_progress (pieces : ∀ result ∈ recvs, Piece result)
    (phase : hc.phase = .ReadingHeaders) (silent : hc.write_buf = [])
    (incomplete : headerEnd hc.read_buf = none)
    (stream : hc.read_buf ++ recvs.flatMap received = r.bytes) :
    Progress config files r (readHeaders config files recvs hc)
      (headersRest recvs hc.read_buf) := by
  induction recvs generalizing hc with
  | nil => exact .head hc [] phase silent incomplete stream
  | cons result recvs ih =>
    have later : ∀ result ∈ recvs, Piece result :=
      fun result member => pieces result (List.mem_cons_of_mem _ member)
    have here := pieces result List.mem_cons_self
    cases result with
    | again => exact .head hc recvs phase silent incomplete stream
    | error => exact here.elim
    | ret data =>
      obtain ⟨some_data, whole⟩ := piece_whole here
      have stream' : (hc.read_buf ++ data) ++ recvs.flatMap received = r.bytes := by
        rw [List.append_assoc]
        exact stream
      have small : ¬ (hc.read_buf ++ data).length > 16384 := by
        have size := r.size
        have sizes := congrArg List.length stream'
        rw [List.length_append] at sizes
        simp only [Request.bytes] at sizes
        omega
      simp only [readHeaders, headersRest, if_neg some_data, whole, small, ↓reduceIte, false_or]
      cases found : headerEnd (hc.read_buf ++ data) with
      | none =>
        exact @ih { hc with read_buf := hc.read_buf ++ data } later phase silent found stream'
      | some n =>
        obtain ⟨rfl, part, shape, rest⟩ := head_complete found stream'
        exact @answerHead_progress config files r { hc with read_buf := hc.read_buf ++ data } recvs
          part silent shape rest

theorem readPostBody_progress (pieces : ∀ result ∈ recvs, Piece result)
    (phase : hc.phase = .ReadingPostBody) (silent : hc.write_buf = [])
    (on : config.browserClientLogDir ≠ [])
    (announced : Announces r.head r.header_end hc.post_content_length)
    (short : hc.post_body_accum.length < hc.post_content_length)
    (stream : hc.post_body_accum ++ recvs.flatMap received = r.body) :
    Progress config files r (readPostBody config recvs hc)
      (bodyRest hc.post_content_length recvs hc.post_body_accum) := by
  induction recvs generalizing hc with
  | nil => exact .body hc [] phase silent on announced short stream
  | cons result recvs ih =>
    have later : ∀ result ∈ recvs, Piece result :=
      fun result member => pieces result (List.mem_cons_of_mem _ member)
    have here := pieces result List.mem_cons_self
    cases result with
    | again => exact .body hc recvs phase silent on announced short stream
    | error => exact here.elim
    | ret data =>
      obtain ⟨some_data, whole⟩ := piece_whole here
      have stream' : (hc.post_body_accum ++ data) ++ recvs.flatMap received = r.body := by
        rw [List.append_assoc]
        exact stream
      have owed := r.owed _ announced
      have bounded := announced.2.2.2
      have sizes := congrArg List.length stream'
      rw [List.length_append] at sizes
      have small : ¬ (hc.post_body_accum ++ data).length > kMaxBrowserLogBody := by omega
      simp only [readPostBody, bodyRest, if_neg some_data, whole, small, ↓reduceIte, false_or]
      by_cases enough : (hc.post_body_accum ++ data).length ≥ hc.post_content_length
      · have complete : r.body = hc.post_body_accum ++ data := by
          have last : recvs.flatMap received = [] := List.eq_nil_of_length_eq_zero (by omega)
          rw [← stream', last, List.append_nil]
        simp only [if_pos enough, if_neg on]
        refine .done _ _ (.inr ⟨_, rfl⟩) ?_
        rw [answer_body on announced, complete, if_pos enough]
        rfl
      · simp only [if_neg enough]
        exact @ih { hc with post_body_accum := hc.post_body_accum ++ data } later phase silent
          announced (Nat.lt_of_not_ge enough) stream'

def Fewer (rest recvs : List RecvResult) : Prop := rest <:+ recvs ∧ rest.length ≤ recvs.length - 1

theorem fewer_tail (result : RecvResult) (recvs : List RecvResult) :
    Fewer recvs (result :: recvs) := ⟨List.suffix_cons result recvs, Nat.le_refl _⟩

theorem Fewer.cons {rest recvs : List RecvResult} (fewer : Fewer rest recvs) (result : RecvResult) :
    Fewer rest (result :: recvs) :=
  ⟨fewer.1.trans (List.suffix_cons result recvs), fewer.2.trans (Nat.sub_le _ _)⟩

theorem headersRest_suffix (recvs : List RecvResult) (buf : Bytes) :
    Fewer (headersRest recvs buf) recvs := by
  induction recvs generalizing buf with
  | nil => exact ⟨List.suffix_refl [], Nat.le_refl 0⟩
  | cons result recvs ih =>
    have next := fewer_tail result recvs
    cases result with
    | again => exact next
    | error => exact next
    | ret data =>
      have deeper := ih (buf ++ data.take 4096)
      simp only [headersRest]
      split
      · exact next
      · split
        · exact next
        · exact deeper.cons _

theorem bodyRest_suffix (cl : Nat) (recvs : List RecvResult) (accum : Bytes) :
    Fewer (bodyRest cl recvs accum) recvs := by
  induction recvs generalizing accum with
  | nil => exact ⟨List.suffix_refl [], Nat.le_refl 0⟩
  | cons result recvs ih =>
    have next := fewer_tail result recvs
    cases result with
    | again => exact next
    | error => exact next
    | ret data =>
      have deeper := ih (accum ++ data.take 4096)
      simp only [bodyRest]
      split
      · exact next
      · split
        · exact next
        · exact deeper.cons _

/-- What every event keeps: the connection is somewhere in the request. -/
structure Serves (config : HttpConfig) (files : Bytes → FileRead) (r : Request) (s : Serving) :
    Prop where
  progress : Progress config files r s.driven s.recvs
  pieces : ∀ result ∈ s.recvs, Piece result

theorem nextEvent_settled {s : Serving} (settled : s.driven.answer.Settled) :
    nextEvent config files s = s := by
  obtain ⟨⟨connection, logged⟩, recvs⟩ := s
  cases connection with
  | closed => rfl
  | threw => rfl
  | kept hc =>
    rcases settled with threw | ⟨write_buf, shown⟩
    · contradiction
    · have phase : hc.phase = .WritingResponse := congrArg Prod.fst (Outcome.kept.inj shown)
      simp [nextEvent, handleEvent, restAfter, phase]

/- An event takes something from the socket, unless the response is there. -/
theorem nextEvent_serves {s : Serving} (serves : Serves config files r s) :
    Serves config files r (nextEvent config files s) ∧
      (s.driven.answer.Settled ∨ (nextEvent config files s).recvs.length ≤ s.recvs.length - 1) := by
  obtain ⟨driven, recvs⟩ := s
  obtain ⟨progress, pieces⟩ := serves
  dsimp only at progress pieces
  cases progress with
  | head hc recvs phase silent incomplete stream =>
    have next : Progress config files r _ _ :=
      readHeaders_progress pieces phase silent incomplete stream
    have rest := headersRest_suffix recvs hc.read_buf
    have same : nextEvent config files ⟨⟨.kept hc, []⟩, recvs⟩ =
        ⟨readHeaders config files recvs hc, headersRest recvs hc.read_buf⟩ := by
      simp [nextEvent, handleEvent, driveHttpRead, restAfter, phase]
    rw [same]
    exact ⟨⟨next, fun result member => pieces result (rest.1.subset member)⟩, .inr rest.2⟩
  | body hc recvs phase silent on announced short stream =>
    have next : Progress config files r _ _ :=
      readPostBody_progress pieces phase silent on announced short stream
    have rest := bodyRest_suffix hc.post_content_length recvs hc.post_body_accum
    have same : nextEvent config files ⟨⟨.kept hc, []⟩, recvs⟩ =
        ⟨readPostBody config recvs hc,
          bodyRest hc.post_content_length recvs hc.post_body_accum⟩ := by
      simp [nextEvent, handleEvent, driveHttpRead, restAfter, phase]
    rw [same]
    exact ⟨⟨next, fun result member => pieces result (rest.1.subset member)⟩, .inr rest.2⟩
  | done driven recvs settled same =>
    have still : nextEvent config files ⟨driven, recvs⟩ = ⟨driven, recvs⟩ :=
      nextEvent_settled settled
    rw [still]
    exact ⟨⟨.done driven recvs settled same, pieces⟩, .inl settled⟩

theorem run_serves {recvs : List RecvResult} (carries : Carries r.bytes recvs) (events : Nat) :
    let s := (nextEvent config files)^[events] (accepted recvs)
    Serves config files r s ∧
      (s.driven.answer.Settled ∨ s.recvs.length ≤ recvs.length - events) := by
  induction events with
  | zero => exact ⟨⟨.head {} recvs rfl rfl rfl carries.1, carries.2⟩, .inr (Nat.le_refl _)⟩
  | succ events ih =>
    obtain ⟨serves, far⟩ := ih
    rw [Function.iterate_succ_apply']
    obtain ⟨next, moved⟩ := nextEvent_serves serves
    refine ⟨next, ?_⟩
    rcases far with settled | near
    · rw [nextEvent_settled settled]
      exact .inl settled
    · rcases moved with settled | shorter
      · rw [nextEvent_settled settled]
        exact .inl settled
      · right
        omega

theorem serves_answer {s : Serving} (serves : Serves config files r s) :
    Waiting s ∨ s.driven.answer = r.answer config files := by
  obtain ⟨driven, recvs⟩ := s
  obtain ⟨progress, _⟩ := serves
  cases progress with
  | head hc recvs phase silent incomplete stream =>
    left
    refine ⟨⟨.ReadingHeaders, by decide, by simp [Driven.answer, Outcome.map, phase, silent]⟩, ?_⟩
    intro last
    dsimp only at last
    rw [last, List.append_nil] at stream
    have complete := headerEnd_grow r.body r.ended
    rw [stream, Request.bytes, complete] at incomplete
    contradiction
  | body hc recvs phase silent on announced short stream =>
    by_cases last : recvs.flatMap received = []
    · right
      rw [last, List.append_nil] at stream
      rw [answer_body on announced, ← stream, if_neg (Nat.not_le_of_lt short)]
      simp [Driven.answer, Outcome.map, phase, silent]
    · left
      exact ⟨⟨.ReadingPostBody, by decide, by simp [Driven.answer, Outcome.map, phase, silent]⟩,
        last⟩
  | done driven recvs settled same => exact .inr same

theorem settled_not_waiting {s : Serving} (settled : s.driven.answer.Settled) : ¬ Waiting s := by
  rintro ⟨⟨phase, reading, seen⟩, _⟩
  rw [seen] at settled
  rcases settled with threw | ⟨write_buf, shown⟩
  · contradiction
  · exact reading (congrArg Prod.fst (Outcome.kept.inj shown))

/- With its whole body there, a request is always answered, and at most that body is logged. -/
theorem complete_answered (complete : r.Complete) (readable : ¬ r.Unreadable config files) :
    ∃ write_buf logged, r.answer config files = ⟨.kept (.WritingResponse, write_buf), logged⟩ ∧
      (logged = [] ∨ logged = [r.body]) := by
  by_cases waits : config.browserClientLogDir ≠ [] ∧ ∃ cl, Announces r.head r.header_end cl
  · obtain ⟨on, cl, announced⟩ := waits
    have exactly := complete cl announced
    have whole : r.body.take cl = r.body := List.take_of_length_le exactly.le
    rw [answer_body on announced, if_pos exactly.ge, whole]
    exact ⟨_, _, rfl, .inr rfl⟩
  · obtain ⟨write_buf, fixed⟩ := answerHead_fixed readable waits
    exact ⟨write_buf, [], fixed _ r.body rfl, .inl rfl⟩

end

/- However a request is cut, there is one answer to it, and it comes once. The answer to a GET of
   a directory is that the server ends. -/
theorem cut_never_shows (config : HttpConfig) (files : Bytes → FileRead) (r : Request)
    {recvs : List RecvResult} (carries : Carries r.bytes recvs) :
    (∀ events,
      let s := (nextEvent config files)^[events] (accepted recvs)
      (Waiting s ∨ s.driven.answer = r.answer config files) ∧
        (recvs.length ≤ events → s.driven.answer = r.answer config files)) ∧
      (r.Unreadable config files → r.answer config files = ⟨.threw, []⟩) ∧
      (r.Complete → ¬ r.Unreadable config files → ∃ write_buf logged,
        r.answer config files = ⟨.kept (.WritingResponse, write_buf), logged⟩ ∧
          (logged = [] ∨ logged = [r.body])) := by
  refine ⟨fun events => ?_, answer_unreadable, complete_answered⟩
  obtain ⟨serves, far⟩ := @run_serves config files r recvs carries events
  have seen := serves_answer serves
  refine ⟨seen, fun enough => ?_⟩
  rcases seen with waiting | same
  · rcases far with settled | near
    · exact absurd waiting (settled_not_waiting settled)
    · have last : ((nextEvent config files)^[events] (accepted recvs)).recvs = [] :=
        List.eq_nil_of_length_eq_zero (by omega)
      exact absurd (by rw [last]; rfl) waiting.2
  · exact same

def shortLog : Request where
  head := bytes "POST /__wss_browser_log HTTP/1.1\r\nContent-Length: 3\r\n\r\n"
  header_end := 51
  body := bytes "abc"
  ended := by decide +kernel
  whole := by decide +kernel
  size := by decide +kernel
  owed := by
    intro cl announced
    have length : parseContentLengthHeader ((bytes
        "POST /__wss_browser_log HTTP/1.1\r\nContent-Length: 3\r\n\r\n").take 51) = some 3 := by
      decide +kernel
    have same := announced.2.1
    rw [length] at same
    rw [← Option.some.inj same]
    decide +kernel

def pieces : List RecvResult :=
  [.ret (bytes "POST /__wss_browser_log HTTP/1.1\r\nContent-Length: 3\r\n\r"), .again,
    .ret (bytes "\na"), .ret (bytes "bc")]

/- Cut inside the blank line and inside the body. -/
theorem short_log_answered :
    ((nextEvent ⟨[], bytes "log"⟩ fun _ => .missing)^[4] (accepted pieces)).driven.answer =
      shortLog.answer ⟨[], bytes "log"⟩ fun _ => .missing := by
  have sized : ∀ result ∈ pieces, Piece result := by
    intro result member
    simp only [pieces, List.mem_cons, List.not_mem_nil, or_false] at member
    rcases member with rfl | rfl | rfl | rfl
    · change 0 < (bytes _).length ∧ (bytes _).length ≤ 4096
      decide +kernel
    · trivial
    · change 0 < (bytes _).length ∧ (bytes _).length ≤ 4096
      decide +kernel
    · change 0 < (bytes _).length ∧ (bytes _).length ≤ 4096
      decide +kernel
  exact ((cut_never_shows ⟨[], bytes "log"⟩ (fun _ => .missing) shortLog
    ⟨by decide +kernel, sized⟩).1 4).2 (by decide)

end HttpResponder
