import WebsocketServer.Ws.RoundTrip

/- A binary frame of either encoder passes a parser that is between messages exactly when its
   payload is within the limit. -/
namespace StreamParser
open WebSocketCodec Upgrade StreamMachine

theorem readFrame_oversized {limit : Nat} (rm : Bool) (b0 : UInt8) {mask_bit : UInt8} {len : Nat}
    (rest : Bytes) (rsv : b0 &&& 0x70 = 0) (data : ¬ b0 &&& 0x0F ≥ 0x8)
    (flag : mask_bit = 0 ∨ mask_bit = 0x80) (bound : len < 2 ^ 64) (large : limit < len) :
    readFrame limit rm (b0 :: (lengthField mask_bit len ++ rest)) 0 =
      .error (.invalid "WS payload too large") := by
  obtain ⟨b1, ext, shape, _, _, length⟩ := lengthField_read flag bound b0 rest
  have refused : reject (decide (len > limit)) "WS payload too large" =
      .error (.invalid "WS payload too large") := by
    simp only [reject, decide_eq_true_eq]
    rw [if_pos large]
  rw [shape, List.cons_append, readFrame_header rsv (fun c => absurd c data) length, refused]
  rfl

section
variable (ssl : OpenSsl) (env : Environment) (now : UInt64) (seen : NonceTable)

/-- A parser in Open mode that holds nothing turns the bytes into this one binary message. -/
def DeliversBinary (requireMaskFromPeer : Bool) (wire payload : Bytes) : Prop :=
  feed ssl env now seen (setOpenMode (construct requireMaskFromPeer)) wire =
    ⟨setOpenMode (construct requireMaskFromPeer), seen, false, [], [⟨0x2, true, payload⟩], none⟩

theorem refused_undelivered {requireMaskFromPeer : Bool} {wire payload : Bytes} {what : String}
    (refused :
    readFrame (maxPayloadLimit env) requireMaskFromPeer wire 0 = .error (.invalid what)) :
    ¬ DeliversBinary ssl env now seen requireMaskFromPeer wire payload := by
  intro delivers
  have thrown := congrArg FeedResult.thrown delivers
  have read : (feed ssl env now seen (setOpenMode (construct requireMaskFromPeer)) wire).thrown =
      some what := by
    simp only [feed, setOpenMode, construct, List.nil_append, parseFrames, parseLoop, refused]
  rw [read] at thrown
  contradiction

theorem client_binary_iff (rand : Option MaskKey) {payload : Bytes}
    (bound : payload.length < 2 ^ 64) :
    DeliversBinary ssl env now seen true (buildClientBinaryFrame rand payload) payload ↔
      payload.length ≤ maxPayloadLimit env := by
  constructor
  · intro delivers
    by_contra large
    have refused := readFrame_oversized true (0x80 ||| (0x2 &&& 0x0F))
      (List.ofFn (rand.getD fallbackMaskKey) ++ applyMask (rand.getD fallbackMaskKey) payload)
      (by decide) (by decide) (.inr rfl) bound (Nat.lt_of_not_le large)
    rw [← List.append_assoc, ← List.cons_append, ← List.cons_append] at refused
    exact refused_undelivered ssl env now seen refused delivers
  · intro fits
    have sent := run_client ssl (fresh_idle true)
      [(rand, .data ⟨0x2, payload, .inr rfl, fits⟩)] []
    rw [List.append_nil, run_more _ (fresh_waits ssl env true true)] at sent
    have delivered := feed_consumed true now seen sent
    simp only [List.flatMap_singleton, clientWire, ClientSent.frame,
      List.map_singleton] at delivered
    exact delivered

theorem server_binary_iff {payload : Bytes} (bound : payload.length < 2 ^ 64) :
    DeliversBinary ssl env now seen false (buildBinaryFrame payload) payload ↔
      payload.length ≤ maxPayloadLimit env := by
  constructor
  · intro delivers
    by_contra large
    have refused := readFrame_oversized false (0x80 ||| (0x2 &&& 0x0F)) payload
      (by decide) (by decide) (.inl rfl) bound (Nat.lt_of_not_le large)
    rw [← List.cons_append] at refused
    exact refused_undelivered ssl env now seen refused delivers
  · intro fits
    have delivered := feed_conversation ssl env now seen
      [.message ⟨⟨0x2, payload, .inr rfl, fits⟩, []⟩]
    simp only [List.flatMap_singleton, Sent.wire, Message.wire, continuationWire,
      List.isEmpty_nil, List.append_nil, Sent.delivered, Message.delivered, assembled,
      List.flatMap_nil, List.nil_append] at delivered
    exact delivered

end

end StreamParser
