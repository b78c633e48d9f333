import WebsocketServer.Ws.Upgrade

/- How the client gets its upgrade request to the server: as early data in front of the handshake,
   or behind it. The answers of the TLS calls are inputs, in the order of the calls. -/
namespace MainClient
open CString

inductive ConnectAnswer where
  | done
  | want
  | failed
  deriving DecidableEq

/-- SSL_write_early_data; SSL_connect is called behind a want. -/
inductive EarlyAnswer where
  | written (n : Nat)
  | want (connect : ConnectAnswer)
  | failed
  deriving DecidableEq

inductive WriteAnswer where
  | wrote (n : Nat)
  | want
  | failed
  deriving DecidableEq

inductive EarlyDataStatus where
  | NOT_SENT
  | REJECTED
  | ACCEPTED
  deriving DecidableEq

/-- A loop still runs when its answers are used up. -/
inductive Outcome (α : Type) where
  | running
  | throws (what : String)
  | returns (value : α)
  deriving DecidableEq

def Outcome.bind {α β : Type} (o : Outcome α) (f : α → Outcome β) : Outcome β :=
  match o with
  | .running => .running
  | .throws what => .throws what
  | .returns value => f value

def Outcome.map {α β : Type} (f : α → β) (o : Outcome α) : Outcome β :=
  o.bind fun value => .returns (f value)

structure UpgradeAnswers where
  early : List EarlyAnswer
  connects : List ConnectAnswer
  status : EarlyDataStatus
  writes : List WriteAnswer

/-- while (off < req.size()), with the bytes OpenSSL took as early data. -/
def earlyWriteLoop (req : Bytes) (off : Nat) (answers : List EarlyAnswer) : Outcome Bytes :=
  if off < req.length then
    match answers with
    | [] => .running
    | .written n :: answers =>
        let piece := (req.drop off).take n
        (earlyWriteLoop req (off + piece.length) answers).map (piece ++ ·)
    | .want .done :: answers | .want .want :: answers => earlyWriteLoop req off answers
    | .want .failed :: _ => .throws "SSL_connect during early write failed"
    | .failed :: _ => .throws "SSL_write_early_data failed"
  else .returns []

def connectLoop : List ConnectAnswer → Outcome Unit
  | [] => .running
  | .done :: _ => .returns ()
  | .want :: answers => connectLoop answers
  | .failed :: _ => .throws "SSL_connect failed"

def sendEarlyDataThenFinishHandshake (a : UpgradeAnswers) (req : Bytes) : Outcome Bytes :=
  (earlyWriteLoop req 0 a.early).bind fun early => (connectLoop a.connects).map fun _ => early

def sslWriteAll (data : Bytes) (off : Nat) (answers : List WriteAnswer) : Outcome Bytes :=
  if off < data.length then
    match answers with
    | [] => .running
    | .wrote n :: answers =>
        let piece := (data.drop off).take (max n 1)
        (sslWriteAll data (off + piece.length) answers).map (piece ++ ·)
    | .want :: answers => sslWriteAll data off answers
    | .failed :: _ => .throws "SSL_write failed"
  else .returns []

/-- What main knows before the handshake. The session is the one loaded from --session-file, with
    its max_early_data. -/
structure Connecting where
  EVP_EncodeBlock : Bytes → Bytes
  host : Bytes
  enable0Rtt : Int
  session : Option UInt32
  randKey : Bytes
  nonceRaw : Bytes

namespace Connecting
variable (c : Connecting)

def wsKey : Bytes := c.EVP_EncodeBlock c.randKey

def req : Bytes :=
  let head := bytes "GET / HTTP/1.1\r\n" ++ bytes "Host: " ++ c.host ++ bytes "\r\n" ++
    bytes "Upgrade: websocket\r\n" ++ bytes "Connection: Upgrade\r\n" ++
    bytes "Sec-WebSocket-Key: " ++ c.wsKey ++ bytes "\r\n"
  if c.enable0Rtt ≠ 0 then
    head ++ bytes "Sec-WebSocket-Version: 13\r\n" ++ bytes "X-Nonce: " ++
      c.EVP_EncodeBlock c.nonceRaw ++ bytes "\r\n\r\n"
  else head ++ bytes "Sec-WebSocket-Version: 13\r\n\r\n"

def maxEarlyFromSession : UInt32 := c.session.getD 0

def tryEarlyWrite : Bool :=
  c.enable0Rtt ≠ 0 && c.maxEarlyFromSession > 0 && c.req.length ≤ c.maxEarlyFromSession.toNat

def handshake (a : UpgradeAnswers) : Outcome (Bytes × Bool) :=
  if c.tryEarlyWrite then
    (sendEarlyDataThenFinishHandshake a c.req).map fun early => (early, true)
  else (connectLoop a.connects).map fun _ => ([], false)

/-- Up to the wait for the 101 response, with the bytes that reach the server's application: the
    early data if it was accepted, and behind it what SSL_write took. -/
def sendRequest (a : UpgradeAnswers) : Outcome Bytes :=
  (c.handshake a).bind fun (early, wroteEarlyData) =>
    let delivered := if a.status = .ACCEPTED then early else []
    if wroteEarlyData then .returns delivered
    else (sslWriteAll c.req 0 a.writes).map (delivered ++ ·)

end Connecting

theorem Outcome.bind_returns {α β : Type} {o : Outcome α} {f : α → Outcome β} {b : β} :
    o.bind f = .returns b ↔ ∃ a, o = .returns a ∧ f a = .returns b := by
  cases o with
  | running => simp [Outcome.bind]
  | throws what => simp [Outcome.bind]
  | returns value => simp [Outcome.bind]

theorem Outcome.map_returns {α β : Type} {o : Outcome α} {f : α → β} {b : β} :
    o.map f = .returns b ↔ ∃ a, o = .returns a ∧ f a = b := by
  simp only [Outcome.map, Outcome.bind_returns, Outcome.returns.injEq]

theorem taken_rest (data rest : Bytes) (off n : Nat)
    (behind : rest = data.drop (off + ((data.drop off).take n).length)) :
    (data.drop off).take n ++ rest = data.drop off := by
  rw [behind, ← List.drop_drop]
  generalize data.drop off = tail
  by_cases short : n ≤ tail.length
  · rw [List.length_take, Nat.min_eq_left short, List.take_append_drop]
  · rw [List.take_of_length_le (by omega), List.drop_length, List.append_nil]

theorem nothing_left {data sent : Bytes} {off : Nat} (all : ¬ off < data.length)
    (done : Outcome.returns [] = Outcome.returns sent) : sent = data.drop off := by
  rw [← Outcome.returns.inj done, List.drop_eq_nil_of_le (not_lt.mp all)]

theorem earlyWriteLoop_sends {req early : Bytes} {off : Nat} {answers : List EarlyAnswer}
    (done : earlyWriteLoop req off answers = .returns early) : early = req.drop off := by
  induction answers generalizing off early with
  | nil =>
    unfold earlyWriteLoop at done
    by_cases more : off < req.length
    · simp [more] at done
    · rw [if_neg more] at done
      exact nothing_left more done
  | cons answer answers ih =>
    unfold earlyWriteLoop at done
    by_cases more : off < req.length
    · rw [if_pos more] at done
      cases answer with
      | written n =>
        obtain ⟨rest, later, joined⟩ := Outcome.map_returns.mp done
        rw [← joined]
        exact taken_rest req rest off n (ih later)
      | want connect =>
        cases connect with
        | done => exact ih done
        | want => exact ih done
        | failed => contradiction
      | failed => contradiction
    · rw [if_neg more] at done
      exact nothing_left more done

theorem sslWriteAll_sends {data sent : Bytes} {off : Nat} {answers : List WriteAnswer}
    (done : sslWriteAll data off answers = .returns sent) : sent = data.drop off := by
  induction answers generalizing off sent with
  | nil =>
    unfold sslWriteAll at done
    by_cases more : off < data.length
    · simp [more] at done
    · rw [if_neg more] at done
      exact nothing_left more done
  | cons answer answers ih =>
    unfold sslWriteAll at done
    by_cases more : off < data.length
    · rw [if_pos more] at done
      cases answer with
      | wrote n =>
        obtain ⟨rest, later, joined⟩ := Outcome.map_returns.mp done
        rw [← joined]
        exact taken_rest data rest off (max n 1) (ih later)
      | want => exact ih done
      | failed => contradiction
    · rw [if_neg more] at done
      exact nothing_left more done

theorem handshake_early {c : Connecting} {a : UpgradeAnswers} {early : Bytes}
    {wroteEarlyData : Bool} (done : c.handshake a = .returns (early, wroteEarlyData)) :
    wroteEarlyData = c.tryEarlyWrite ∧ early = if wroteEarlyData then c.req else [] := by
  unfold Connecting.handshake at done
  cases tries : c.tryEarlyWrite with
  | true =>
    rw [tries, if_pos rfl] at done
    obtain ⟨sent, finished, same⟩ := Outcome.map_returns.mp done
    obtain ⟨rfl, rfl⟩ := Prod.mk.inj same
    obtain ⟨sent', written, connected⟩ := Outcome.bind_returns.mp finished
    obtain ⟨_, _, rfl⟩ := Outcome.map_returns.mp connected
    exact ⟨rfl, earlyWriteLoop_sends written⟩
  | false =>
    rw [tries, if_neg Bool.false_ne_true] at done
    obtain ⟨_, _, same⟩ := Outcome.map_returns.mp done
    obtain ⟨rfl, rfl⟩ := Prod.mk.inj same
    exact ⟨rfl, rfl⟩

theorem req_nonempty (c : Connecting) : c.req ≠ [] := by
  have get : bytes "GET / HTTP/1.1\r\n" ≠ [] := by decide
  unfold Connecting.req
  dsimp only
  split <;> simp [get]

/-- Where the client goes on to wait for the 101 response, the server's application has the
    request exactly once if and only if no early data was tried or it was accepted. -/
theorem request_delivered_exact {c : Connecting} {a : UpgradeAnswers} {delivered : Bytes}
    (waits : c.sendRequest a = .returns delivered) :
    delivered = c.req ↔ (c.tryEarlyWrite = true → a.status = .ACCEPTED) := by
  unfold Connecting.sendRequest at waits
  obtain ⟨⟨early, wroteEarlyData⟩, shaken, sent⟩ := Outcome.bind_returns.mp waits
  obtain ⟨rfl, rfl⟩ := handshake_early shaken
  simp only at sent
  cases tries : c.tryEarlyWrite with
  | true =>
    rw [tries] at sent
    simp only [↓reduceIte, Outcome.returns.injEq] at sent
    subst sent
    by_cases accepted : a.status = .ACCEPTED
    · simp [accepted]
    · simp [accepted, (req_nonempty c).symm]
  | false =>
    rw [tries] at sent
    obtain ⟨written, all, same⟩ := Outcome.map_returns.mp sent
    have whole := sslWriteAll_sends all
    simp only [Bool.false_eq_true, ↓reduceIte, ite_self, List.nil_append,
      List.drop_zero] at same whole
    simp [← same, whole]

/-- A second run with --enable-0rtt 1 and the session of the first one. -/
def secondRun : Connecting where
  EVP_EncodeBlock := fun _ => bytes "AAAAAAAAAAAAAAAAAAAAAA=="
  host := bytes "127.0.0.1"
  enable0Rtt := 1
  session := some 16384
  randKey := List.replicate 16 0
  nonceRaw := List.replicate 16 0

def inPieces (status : EarlyDataStatus) : UpgradeAnswers where
  early := [.written 10, .want .want, .want .done, .written 1000]
  connects := [.want, .done]
  status := status
  writes := []

theorem pieces_accepted :
    secondRun.sendRequest (inPieces .ACCEPTED) = .returns secondRun.req ∧
      (secondRun.tryEarlyWrite = true → (inPieces .ACCEPTED).status = .ACCEPTED) :=
  ⟨by decide +kernel, (request_delivered_exact (by decide +kernel)).mp rfl⟩

/-- The server rejects the early data, and the request is not sent again. -/
theorem rejected_request_lost :
    ¬ ∀ (c : Connecting) (a : UpgradeAnswers) (delivered : Bytes),
      c.sendRequest a = .returns delivered → delivered = c.req := by
  intro claimed
  have lost : secondRun.sendRequest (inPieces .REJECTED) = .returns [] := by decide +kernel
  exact req_nonempty secondRun (claimed secondRun (inPieces .REJECTED) [] lost).symm

end MainClient
