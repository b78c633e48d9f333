import WebsocketServer.Library.CString

/- The HTTP Upgrade request: header lookup, the nonce check of the 0-RTT experiment and the
   101 response. SHA1 and EVP_EncodeBlock are OpenSSL's and stay parameters. -/
namespace Upgrade
open CString

structure OpenSsl where
  SHA1 : Bytes → Bytes
  EVP_EncodeBlock : Bytes → Bytes

structure Environment where
  WSS_MAX_PAYLOAD_BYTES : Option String
  WSS_ENABLE_0RTT : Option String

def kGuid : Bytes := bytes "258EAFA5-E914-47DA-95CA-C5AB0DC85B11"
def kCRLFCRLF : Bytes := bytes "\r\n\r\n"

def toLower (s : Bytes) : Bytes := s.map tolower

/-- A header line without its trailing '\r'. -/
def chomp (line : Bytes) : Bytes := if line.getLast? = some 13 then line.dropLast else line

def findHeaderValue (headerBlock headerName : Bytes) : Option Bytes :=
  (getLines headerBlock).findSome? fun raw =>
    let line := chomp raw
    match line.findIdx? (· == 58) with
    | none => none
    | some pos =>
        if toLower (line.take pos) = toLower headerName then
          some ((line.drop (pos + 1)).dropWhile (· == 32))
        else none

/-- The value cached by the first call. Settings below 1024 or unreadable keep the default. -/
def maxPayloadLimit (env : Environment) : Nat :=
  match env.WSS_MAX_PAYLOAD_BYTES with
  | none => 64 * 1024
  | some v =>
      match stoul v.toList with
      | none => 64 * 1024
      | some parsed => if parsed ≥ 1024 then parsed else 64 * 1024

def shouldEnforceNonce (env : Environment) : Bool := env.WSS_ENABLE_0RTT == some "1"

/-- The process-wide table of nonces and the second each was accepted in. -/
abbrev NonceTable := List (Bytes × UInt64)

def nonceTtl : UInt64 := 300

/-- Entries are dropped by unsigned subtraction, so a clock that went back drops them all. -/
def acceptNonce (now : UInt64) (seen : NonceTable) (nonce : Bytes) : Bool × NonceTable :=
  let seen := seen.filter fun entry => !(now - entry.2 > nonceTtl)
  if nonce.isEmpty then (false, seen)
  else if seen.any fun entry => entry.1 == nonce then (false, seen)
  else (true, (nonce, now) :: seen)

def computeAccept (ssl : OpenSsl) (secWebSocketKey : Bytes) : Bytes :=
  ssl.EVP_EncodeBlock (ssl.SHA1 (secWebSocketKey ++ kGuid))

def acceptResponse (accept : Bytes) : Bytes :=
  bytes "HTTP/1.1 101 Switching Protocols\r\n" ++ bytes "Upgrade: websocket\r\n" ++
    bytes "Connection: Upgrade\r\n" ++ bytes "Sec-WebSocket-Accept: " ++ accept ++ kCRLFCRLF

/-- One past the end of the first "\r\n\r\n". -/
def headEnd : Bytes → Option Nat
  | [] => none
  | b :: rest =>
      if (b :: rest).take 4 = kCRLFCRLF then some 4 else (headEnd rest).map (· + 1)

def checkHead (ssl : OpenSsl) (env : Environment) (now : UInt64) (seen : NonceTable)
    (headerBlock : Bytes) : Except String Bytes × NonceTable :=
  match findHeaderValue headerBlock (bytes "Sec-WebSocket-Key") with
  | none => (.error "Missing Sec-WebSocket-Key", seen)
  | some secKey =>
      if secKey.isEmpty then (.error "Empty Sec-WebSocket-Key", seen)
      else if (findHeaderValue headerBlock (bytes "Upgrade")).map toLower ≠
          some (bytes "websocket") then
        (.error "Invalid Upgrade header", seen)
      else if shouldEnforceNonce env then
        match findHeaderValue headerBlock (bytes "X-Nonce") with
        | none => (.error "Missing X-Nonce in 0-RTT mode", seen)
        | some nonce =>
            let (accepted, seen) := acceptNonce now seen nonce
            if accepted then (.ok (acceptResponse (computeAccept ssl secKey)), seen)
            else (.error "Replay detected by X-Nonce", seen)
      else (.ok (acceptResponse (computeAccept ssl secKey)), seen)

theorem maxPayloadLimit_lower (env : Environment) : 1024 ≤ maxPayloadLimit env := by
  simp only [maxPayloadLimit]
  split
  · omega
  · split
    · omega
    · split <;> omega

theorem maxPayloadLimit_upper (env : Environment) : maxPayloadLimit env < 2 ^ 64 := by
  simp only [maxPayloadLimit]
  split
  · omega
  · split
    · omega
    · rename_i parsed found
      have bound := stoul_lt found
      split <;> omega

theorem headEnd_bounds {b : Bytes} {n : Nat} (found : headEnd b = some n) :
    4 ≤ n ∧ n ≤ b.length := by
  induction b generalizing n with
  | nil => simp [headEnd] at found
  | cons x rest ih =>
    simp only [headEnd] at found
    split at found
    · rename_i terminator
      have size := congrArg List.length terminator
      have four : kCRLFCRLF.length = 4 := by decide
      simp only [List.length_take, four] at size
      injection found with found
      omega
    · obtain ⟨k, inner, rfl⟩ := Option.map_eq_some_iff.mp found
      have bound := ih inner
      simp only [List.length_cons]
      omega

theorem headEnd_grow {b : Bytes} {n : Nat} (c : Bytes) (found : headEnd b = some n) :
    headEnd (b ++ c) = some n := by
  induction b generalizing n with
  | nil => simp [headEnd] at found
  | cons x rest ih =>
    have bound := headEnd_bounds found
    simp only [headEnd] at found
    simp only [List.cons_append, headEnd]
    split at found
    · rename_i terminator
      have same : (x :: (rest ++ c)).take 4 = (x :: rest).take 4 := by
        rw [← List.cons_append, List.take_append_of_le_length (by omega)]
      rw [if_pos (same.trans terminator)]
      exact found
    · rename_i other
      obtain ⟨k, inner, rfl⟩ := Option.map_eq_some_iff.mp found
      have inside := headEnd_bounds inner
      have same : (x :: (rest ++ c)).take 4 = (x :: rest).take 4 := by
        rw [← List.cons_append,
          List.take_append_of_le_length (by simp only [List.length_cons]; omega)]
      rw [if_neg (same ▸ other), ih inner]
      rfl

theorem checkHead_without_nonce (ssl : OpenSsl) (env : Environment)
    (off : shouldEnforceNonce env = false) (now now' : UInt64) (seen seen' : NonceTable)
    (headerBlock : Bytes) :
    (checkHead ssl env now seen headerBlock).1 = (checkHead ssl env now' seen' headerBlock).1 := by
  simp only [checkHead, off]
  split
  · rfl
  · split
    · rfl
    · split <;> rfl

/- An accepted head is answered by a full 101 response, never by the empty string. -/
theorem checkHead_response {ssl : OpenSsl} {env : Environment} {now : UInt64} {seen : NonceTable}
    {headerBlock response : Bytes}
    (ok : (checkHead ssl env now seen headerBlock).1 = .ok response) :
    ∃ secKey, findHeaderValue headerBlock (bytes "Sec-WebSocket-Key") = some secKey ∧
      response = acceptResponse (computeAccept ssl secKey) := by
  unfold checkHead at ok
  split at ok
  · contradiction
  · rename_i secKey found
    refine ⟨secKey, found, ?_⟩
    split at ok
    · contradiction
    · split at ok
      · contradiction
      · split at ok
        · split at ok
          · contradiction
          · dsimp only at ok
            split at ok
            · injection ok with same
              exact same.symm
            · contradiction
        · injection ok with same
          exact same.symm

theorem acceptResponse_ne_nil (accept : Bytes) : acceptResponse accept ≠ [] := by
  have first : bytes "HTTP/1.1 101 Switching Protocols\r\n" ≠ [] := by decide
  simp [acceptResponse, first]

end Upgrade
