import WebsocketServer.Ws.Delivered
import WebsocketServer.Ws.Framing

/- The frame loop of feed with its indices checked: a subtraction that would wrap and an access
   outside buffer_ are faults here. No run meets one, and what feed keeps back is the beginning
   of one frame. -/
namespace StreamParser
open WebSocketCodec Upgrade

/-- What must not happen to the cursor; endless stands for a loop that consumes nothing. -/
inductive Fault where
  | wraps
  | outside
  | endless
  deriving DecidableEq, Repr

/-- A part of the loop body, which may break or throw, unless an index of it is at fault. -/
abbrev Checked := ExceptT Halt (Except Fault)

def faulty {β : Type} (fault : Fault) : Checked β := ExceptT.mk (.error fault)

def unindexed {β : Type} (r : Except Halt β) : Checked β := ExceptT.mk (.ok r)

section
variable (buffer_ : Bytes) (parse_offset_ : Nat)

/-- buffer_.size() - idx -/
def sizeMinus (idx : Nat) : Checked Nat :=
  if parse_offset_ ≤ idx ∧ idx ≤ buffer_.length then pure (buffer_.length - idx) else faulty .wraps

/-- buffer_[i] -/
def byteAt (i : Nat) : Checked UInt8 :=
  match buffer_[i]? with
  | some b => if parse_offset_ ≤ i then pure b else faulty .outside
  | none => faulty .outside

/-- memcpy(..., &buffer_[idx], n) -/
def bytesAt (idx n : Nat) : Checked Bytes :=
  if parse_offset_ ≤ idx ∧ idx + n ≤ buffer_.length then pure ((buffer_.drop idx).take n)
  else faulty .outside

/-- if (buffer_.size() - idx < n) break; -/
def checkedNeed (idx n : Nat) : Checked Unit := do
  let room ← sizeMinus buffer_ parse_offset_ idx
  if room < n then unindexed (.error .incomplete) else pure ()

/-- The loop of the 64-bit form over the next n bytes, in the 64 bits of payload_len. -/
def lengthLoop : Nat → Nat → UInt64 → Checked UInt64
  | 0, _, payload_len => pure payload_len
  | n + 1, i, payload_len => do
      let b ← byteAt buffer_ parse_offset_ i
      lengthLoop n (i + 1) (payload_len <<< 8 ||| b.toUInt64)

def checkedLength (idx : Nat) (payload_len : UInt64) : Checked (Nat × Nat) :=
  if payload_len = 126 then do
    checkedNeed buffer_ parse_offset_ idx 2
    let high ← byteAt buffer_ parse_offset_ idx
    let low ← byteAt buffer_ parse_offset_ (idx + 1)
    return ((high.toUInt64 <<< 8 ||| low.toUInt64).toNat, idx + 2)
  else if payload_len = 127 then do
    checkedNeed buffer_ parse_offset_ idx 8
    let payload_len ← lengthLoop buffer_ parse_offset_ 8 idx 0
    return (payload_len.toNat, idx + 8)
  else return (payload_len.toNat, idx)

def checkedMaskKey (require_mask_ masked : Bool) (idx : Nat) : Checked (MaskKey × Nat) :=
  if masked then do
    checkedNeed buffer_ parse_offset_ idx 4
    let mask_key ← bytesAt buffer_ parse_offset_ idx 4
    return (fun i => mask_key.getD i 0, idx + 4)
  else do
    unindexed (reject require_mask_ "Masked bit not set on incoming frame")
    return (fun _ => 0, idx)

/-- The loop body up to the frame it has read; the source's own reads, each of them checked. -/
def checkedFrame (kMaxPayload : Nat) (require_mask_ : Bool) : Checked (WsFrame × Nat) := do
  checkedNeed buffer_ parse_offset_ parse_offset_ 2
  let idx := parse_offset_
  let b0 ← byteAt buffer_ parse_offset_ idx
  let b1 ← byteAt buffer_ parse_offset_ (idx + 1)
  let fin := b0 &&& 0x80 != 0
  let opcode := b0 &&& 0x0F
  unindexed (reject (b0 &&& 0x70 != 0) "RSV bits set")
  let masked := b1 &&& 0x80 != 0
  let payload_len := (b1 &&& 0x7F).toUInt64
  unindexed (reject (decide (opcode ≥ 0x8) && !fin) "Control frames must not be fragmented")
  unindexed (reject (decide (opcode ≥ 0x8) && decide (payload_len > 125))
    "Control frame payload too large")
  let (payload_len, idx) ← checkedLength buffer_ parse_offset_ (idx + 2) payload_len
  unindexed (reject (decide (payload_len > kMaxPayload)) "WS payload too large")
  let (mask_key, idx) ← checkedMaskKey buffer_ parse_offset_ require_mask_ masked idx
  checkedNeed buffer_ parse_offset_ idx payload_len
  let payload ← bytesAt buffer_ parse_offset_ idx payload_len
  let payload := if masked then applyMask mask_key payload else payload
  return ({ opcode, fin, payload }, idx + payload_len)

end

def checkedLoop (kMaxPayload : Nat) : Nat → WebSocketStreamParser → Except Fault LoopResult
  | 0, _ => .error .endless
  | fuel + 1, p => do
      match ← (checkedFrame p.buffer_ p.parse_offset_ kMaxPayload p.require_mask_).run with
      | .error .incomplete => return ⟨p, [], none⟩
      | .error (.invalid what) => return ⟨p, [], some what⟩
      | .ok (f, idx) =>
          match acceptFrame { p with parse_offset_ := idx } f with
          | (p', .error what) => return ⟨p', [], some what⟩
          | (p', .ok frames) =>
              let r ← checkedLoop kMaxPayload fuel p'
              return { r with outFrames := frames ++ r.outFrames }

/-- buffer_.erase(begin, begin + parse_offset_) -/
def checkedCompact (p : WebSocketStreamParser) : Except Fault WebSocketStreamParser :=
  if p.parse_offset_ > 0 then
    if p.parse_offset_ ≤ p.buffer_.length then
      .ok { p with buffer_ := p.buffer_.drop p.parse_offset_, parse_offset_ := 0 }
    else .error .outside
  else .ok p

section
variable (ssl : OpenSsl) (env : Environment)

def checkedFrames (seen : NonceTable) (p : WebSocketStreamParser) (producedAccept : Bool)
    (outAcceptResponse : Bytes) : Except Fault FeedResult := do
  let r ← checkedLoop (maxPayloadLimit env) (p.buffer_.length + 1) p
  let parser ← if r.thrown.isNone then checkedCompact r.parser else .ok r.parser
  return { parser, seen, producedAccept, outAcceptResponse
           outFrames := r.outFrames, thrown := r.thrown }

def checkedFeed (now : UInt64) (seen : NonceTable) (p : WebSocketStreamParser) (data : Bytes) :
    Except Fault FeedResult :=
  let p := { p with buffer_ := p.buffer_ ++ data }
  match p.state_ with
  | .Open => checkedFrames env seen p false []
  | .AwaitingHttpUpgrade =>
      match tryConsumeUpgrade ssl env now seen p with
      | none => .ok ⟨p, seen, false, [], [], none⟩
      | some (.error what, seen) => .ok ⟨p, seen, false, [], [], some what⟩
      | some (.ok (response, p), seen) => checkedFrames env seen p true response

end

/-- A checked part that meets no fault and does what the unchecked one does. -/
def Safe {β : Type} (x : Checked β) (r : Except Halt β) : Prop := x.run = .ok r

section
variable {β γ : Type}

theorem safe_pure (a : β) : Safe (pure a) (.ok a) := rfl

theorem safe_unindexed (r : Except Halt β) : Safe (unindexed r) r := rfl

theorem safe_bind {x : Checked β} {r : Except Halt β} {f : β → Checked γ} {g : β → Except Halt γ}
    (first : Safe x r) (second : ∀ a, r = .ok a → Safe (f a) (g a)) :
    Safe (x >>= f) (r >>= g) := by
  unfold Safe at first second ⊢
  rw [ExceptT.run_bind, first]
  cases r with
  | error halt => rfl
  | ok a => exact second a rfl

end

section
variable {b : Bytes} {off : Nat}

theorem byteAt_inside {i : Nat} (behind : off ≤ i) (inside : i < b.length) :
    byteAt b off i = pure (b.getD i 0) := by
  unfold byteAt
  rw [List.getElem?_eq_getElem inside]
  simp [behind, List.getElem?_eq_getElem inside]

theorem bytesAt_inside {idx n : Nat} (behind : off ≤ idx) (inside : idx + n ≤ b.length) :
    bytesAt b off idx n = pure ((b.drop idx).take n) := if_pos ⟨behind, inside⟩

theorem checkedNeed_safe {idx : Nat} (n : Nat) (behind : off ≤ idx) (inside : idx ≤ b.length) :
    Safe (checkedNeed b off idx n) (need b idx n) := by
  unfold checkedNeed sizeMinus need
  rw [if_pos ⟨behind, inside⟩, pure_bind]
  split
  · rfl
  · rfl

theorem shift64 {v : UInt64} {k : Nat} (x : UInt8) (room : k < 8) (small : v.toNat < 256 ^ k) :
    (v <<< 8 ||| x.toUInt64).toNat = BigEndian.shiftIn v.toNat x := by
  have bound : v.toNat < 256 ^ 7 :=
    Nat.lt_of_lt_of_le small (Nat.pow_le_pow_right (by decide) (by omega))
  have whole : v.toNat <<< 8 % 2 ^ 64 = v.toNat <<< 8 := by
    apply Nat.mod_eq_of_lt
    rw [Nat.shiftLeft_eq]
    omega
  simp only [UInt64.toNat_or, UInt64.toNat_shiftLeft, UInt8.toNat_toUInt64, BigEndian.shiftIn]
  change v.toNat <<< 8 % 2 ^ 64 ||| x.toNat = _
  rw [whole]

theorem shiftIn_small {v k : Nat} (x : UInt8) (small : v < 256 ^ k) :
    BigEndian.shiftIn v x < 256 ^ (k + 1) := by
  have byte := x.toNat_lt
  rw [BigEndian.shiftIn_eq, pow_succ]
  omega

/- Eight bytes do not overflow the 64 bits they are collected in; k of them have been read. -/
theorem lengthLoop_value {n k i : Nat} {v : UInt64} (behind : off ≤ i) (inside : i + n ≤ b.length)
    (fits : k + n ≤ 8) (small : v.toNat < 256 ^ k) :
    ∃ len : UInt64, lengthLoop b off n i v = pure len ∧
      len.toNat = ((b.drop i).take n).foldl BigEndian.shiftIn v.toNat := by
  induction n generalizing i v k with
  | zero => exact ⟨v, rfl, rfl⟩
  | succ n ih =>
    have here : i < b.length := by omega
    have next := shift64 (b.getD i 0) (by omega : k < 8) small
    obtain ⟨len, loop, value⟩ := ih (i := i + 1) (by omega) (by omega) (by omega : k + 1 + n ≤ 8)
      (next ▸ shiftIn_small (b.getD i 0) small)
    refine ⟨len, ?_, ?_⟩
    · rw [lengthLoop, byteAt_inside behind here, pure_bind]
      exact loop
    · rw [value, next, List.drop_eq_getElem_cons here, List.take_succ_cons, List.foldl_cons]
      simp [List.getElem?_eq_getElem here]

theorem checkedLength_safe {idx : Nat} (n : UInt8) (behind : off ≤ idx) (inside : idx ≤ b.length) :
    Safe (checkedLength b off idx n.toUInt64) (extendedLength b idx n.toNat) := by
  have same (k : Nat) (small : k < 256) : n.toUInt64 = UInt64.ofNat k ↔ n.toNat = k := by
    rw [← UInt64.toNat_inj, UInt8.toNat_toUInt64,
      UInt64.toNat_ofNat_of_lt' (Nat.lt_trans small (by decide))]
  have short : n.toUInt64 = 126 ↔ n.toNat = 126 := same 126 (by decide)
  have long : n.toUInt64 = 127 ↔ n.toNat = 127 := same 127 (by decide)
  unfold checkedLength extendedLength
  by_cases is126 : n.toNat = 126
  · rw [if_pos is126, if_pos (short.mpr is126)]
    refine safe_bind (checkedNeed_safe 2 behind inside) ?_
    intro _ room
    have room := need_ok room inside
    have pair : (b.drop idx).take 2 = [b.getD idx 0, b.getD (idx + 1) 0] := by
      rw [List.drop_eq_getElem_cons (by omega), List.take_succ_cons,
        List.drop_eq_getElem_cons (by omega), List.take_succ_cons, List.take_zero]
      simp [List.getElem?_eq_getElem (show idx < b.length by omega),
        List.getElem?_eq_getElem (show idx + 1 < b.length by omega)]
    have value : ((b.getD idx 0).toUInt64 <<< 8 ||| (b.getD (idx + 1) 0).toUInt64).toNat =
        BigEndian.value ((b.drop idx).take 2) := by
      have high := (b.getD idx 0).toNat_lt
      rw [shift64 _ (by decide : 1 < 8) (by rw [UInt8.toNat_toUInt64]; omega), pair,
        UInt8.toNat_toUInt64]
      simp [BigEndian.value, BigEndian.shiftIn]
    rw [byteAt_inside behind (by omega), pure_bind, byteAt_inside (by omega) (by omega), pure_bind,
      value]
    exact safe_pure _
  rw [if_neg is126, if_neg (is126 ∘ short.mp)]
  by_cases is127 : n.toNat = 127
  · rw [if_pos is127, if_pos (long.mpr is127)]
    refine safe_bind (checkedNeed_safe 8 behind inside) ?_
    intro _ room
    have room := need_ok room inside
    obtain ⟨len, loop, value⟩ :=
      lengthLoop_value (v := 0) (k := 0) behind room (by decide) (by decide)
    rw [loop, pure_bind, value]
    exact safe_pure _
  · rw [if_neg is127, if_neg (is127 ∘ long.mp), UInt8.toNat_toUInt64]
    exact safe_pure _

theorem checkedMaskKey_safe {idx : Nat} (require_mask_ masked : Bool) (behind : off ≤ idx)
    (inside : idx ≤ b.length) :
    Safe (checkedMaskKey b off require_mask_ masked idx)
      (readMaskKey require_mask_ masked b idx) := by
  unfold checkedMaskKey readMaskKey
  by_cases hm : masked
  · rw [if_pos hm, if_pos hm]
    refine safe_bind (checkedNeed_safe 4 behind inside) ?_
    intro _ room
    have room := need_ok room inside
    rw [bytesAt_inside behind room, pure_bind]
    have key : (fun i : Fin 4 => ((b.drop idx).take 4).getD i 0) =
        fun i : Fin 4 => b.getD (idx + i) 0 := by
      funext i
      simp [List.getElem?_drop]
    rw [key]
    exact safe_pure _
  · rw [if_neg hm, if_neg hm]
    refine safe_bind (safe_unindexed _) ?_
    intro _ _
    exact safe_pure _

/- The checks of the body before each read are enough for that read. -/
theorem checkedFrame_safe (limit : Nat) (require_mask_ : Bool) (bound : off ≤ b.length) :
    Safe (checkedFrame b off limit require_mask_) (readFrame limit require_mask_ b off) := by
  unfold checkedFrame readFrame
  refine safe_bind (checkedNeed_safe 2 (Nat.le_refl off) bound) ?_
  intro _ ok
  have two := need_ok ok bound
  dsimp only
  rw [byteAt_inside (Nat.le_refl off) (by omega), pure_bind, byteAt_inside (by omega) (by omega),
    pure_bind]
  refine safe_bind (safe_unindexed _) ?_
  intro _ _
  refine safe_bind (safe_unindexed _) ?_
  intro _ _
  have small : decide ((b.getD (off + 1) 0 &&& 0x7F).toUInt64 > 125) =
      decide ((b.getD (off + 1) 0 &&& 0x7F).toNat > 125) := by
    rw [decide_eq_decide, gt_iff_lt, UInt64.lt_iff_toNat_lt, UInt8.toNat_toUInt64]
    rfl
  rw [small]
  refine safe_bind (safe_unindexed _) ?_
  intro _ _
  refine safe_bind (checkedLength_safe _ (by omega) two) ?_
  intro len ok
  have lenBound := extendedLength_ok two ok
  refine safe_bind (safe_unindexed _) ?_
  intro _ _
  refine safe_bind (checkedMaskKey_safe _ _ (by omega) lenBound.2) ?_
  intro key ok
  have keyBound := readMaskKey_ok lenBound.2 ok
  refine safe_bind (checkedNeed_safe _ (by omega) keyBound.2) ?_
  intro _ ok
  have room := need_ok ok keyBound.2
  rw [bytesAt_inside (by omega) room, pure_bind]
  exact safe_pure _

end

/- A wait says how little is there: the header and the declared length have passed their checks. -/
theorem need_incomplete {b : Bytes} {idx n : Nat} (stuck : need b idx n = .error .incomplete) :
    b.length < idx + n ∨ b.length - idx < n := by
  unfold need at stuck
  split at stuck
  · omega
  · contradiction

section
variable {β γ : Type}

theorem bind_incomplete {x : Except Halt β} {f : β → Except Halt γ}
    (stuck : (x >>= f) = .error .incomplete) :
    x = .error .incomplete ∨ ∃ a, x = .ok a ∧ f a = .error .incomplete := by
  cases x with
  | error halt =>
    left
    simpa [bind, Except.bind] using stuck
  | ok a => exact Or.inr ⟨a, rfl, stuck⟩

/- A check never waits: if what stands behind it does, it has passed. -/
theorem reject_incomplete {cond : Bool} {what : String} {f : Unit → Except Halt γ}
    (stuck : (reject cond what >>= f) = .error .incomplete) :
    cond = false ∧ f () = .error .incomplete := by
  cases cond with
  | true => simp [reject, bind, Except.bind] at stuck
  | false => exact ⟨rfl, stuck⟩

end

theorem extendedLength_place {b : Bytes} {idx n len idx' : Nat}
    (read : extendedLength b idx n = .ok (len, idx')) : idx' ≤ idx + 8 := by
  unfold extendedLength at read
  split at read
  · obtain ⟨_, _, read⟩ := bind_ok read
    have place := (pair_ok read).2
    omega
  · split at read
    · obtain ⟨_, _, read⟩ := bind_ok read
      have place := (pair_ok read).2
      omega
    · have place := (pair_ok read).2
      omega

theorem extendedLength_incomplete {b : Bytes} {idx n : Nat}
    (stuck : extendedLength b idx n = .error .incomplete) : b.length < idx + 8 := by
  unfold extendedLength at stuck
  split at stuck
  · rcases bind_incomplete stuck with short | ⟨_, _, done⟩
    · have short := need_incomplete short
      omega
    · contradiction
  · split at stuck
    · rcases bind_incomplete stuck with short | ⟨_, _, done⟩
      · have short := need_incomplete short
        omega
      · contradiction
    · contradiction

theorem readMaskKey_place {b : Bytes} {rm masked : Bool} {idx idx' : Nat} {key : MaskKey}
    (read : readMaskKey rm masked b idx = .ok (key, idx')) : idx' ≤ idx + 4 := by
  unfold readMaskKey at read
  split at read
  · obtain ⟨_, _, read⟩ := bind_ok read
    have place := (pair_ok read).2
    omega
  · obtain ⟨_, _, read⟩ := bind_ok read
    have place := (pair_ok read).2
    omega

theorem readMaskKey_incomplete {b : Bytes} {rm masked : Bool} {idx : Nat}
    (stuck : readMaskKey rm masked b idx = .error .incomplete) : b.length < idx + 4 := by
  unfold readMaskKey at stuck
  split at stuck
  · rcases bind_incomplete stuck with short | ⟨_, _, done⟩
    · have short := need_incomplete short
      omega
    · contradiction
  · obtain ⟨_, done⟩ := reject_incomplete stuck
    contradiction

/- A frame the loop waits for is within the limit once its length is known, and takes at most
   fourteen bytes before its payload. -/
theorem readFrame_incomplete {limit : Nat} {rm : Bool} {b : Bytes} {off : Nat}
    (stuck : readFrame limit rm b off = .error .incomplete) :
    b.length < off + 14 + limit := by
  unfold readFrame at stuck
  rcases bind_incomplete stuck with short | ⟨_, _, stuck⟩
  · have short := need_incomplete short
    omega
  obtain ⟨_, stuck⟩ := reject_incomplete stuck
  obtain ⟨_, stuck⟩ := reject_incomplete stuck
  obtain ⟨_, stuck⟩ := reject_incomplete stuck
  rcases bind_incomplete stuck with short | ⟨len, length, stuck⟩
  · have short := extendedLength_incomplete short
    omega
  have behind := extendedLength_place length
  obtain ⟨small, stuck⟩ := reject_incomplete stuck
  simp only [gt_iff_lt, decide_eq_false_iff_not, not_lt] at small
  rcases bind_incomplete stuck with short | ⟨key, mask, stuck⟩
  · have short := readMaskKey_incomplete short
    omega
  have payload := readMaskKey_place mask
  rcases bind_incomplete stuck with short | ⟨_, _, done⟩
  · have short := need_incomplete short
    omega
  · contradiction

/-- The n bytes from k on, zeros standing for those that have not come yet. -/
def padded (l : Bytes) (k n : Nat) : Bytes := (List.range n).map fun i => l.getD (k + i) 0

section
variable (l : Bytes)

@[simp] theorem length_padded (k n : Nat) : (padded l k n).length = n := by
  simp [padded]

theorem padded_append (k a n : Nat) : padded l k a ++ padded l (k + a) n = padded l k (a + n) := by
  simp only [padded, List.range_add, List.map_append, List.map_map, Function.comp_def,
    Nat.add_assoc]

theorem padded_take {n : Nat} (here : n ≤ l.length) : padded l 0 n = l.take n := by
  apply List.ext_getElem
  · simp [here]
  · intro i _ inside
    simp only [List.length_take, Nat.lt_min] at inside
    simp [padded, List.getElem?_eq_getElem inside.2]

theorem padded_behind {n : Nat} (missing : l.length ≤ n) :
    padded l 0 n = l ++ padded l l.length (n - l.length) := by
  have whole := padded_append l 0 l.length (n - l.length)
  rw [padded_take l (Nat.le_refl _), List.take_length, Nat.zero_add,
    Nat.add_sub_of_le missing] at whole
  exact whole.symm

end

theorem first_parts (b : UInt8) : ∃ (fin : Bool) (rsv : Fin 8) (opcode : Fin 16),
    UInt8.ofNat (128 * fin.toNat + 16 * rsv.val + opcode.val) = b := by
  have bound := b.toNat_lt
  refine ⟨decide (128 ≤ b.toNat), ⟨b.toNat / 16 % 8, by omega⟩, ⟨b.toNat % 16, by omega⟩, ?_⟩
  rw [← UInt8.toNat_inj, UInt8.toNat_ofNat']
  by_cases high : 128 ≤ b.toNat
  · simp only [high, decide_true, Bool.toNat_true]
    omega
  · simp only [high, decide_false, Bool.toNat_false]
    omega

theorem second_parts (b : UInt8) :
    (if 128 ≤ b.toNat then 0x80 else 0) ||| UInt8.ofNat (b.toNat % 128) = b := by
  have bound := b.toNat_lt
  have low : b.toNat % 128 % 256 = b.toNat % 128 := by omega
  rw [← UInt8.toNat_inj, UInt8.toNat_or, UInt8.toNat_ofNat', low]
  split
  · have joined : 128 + b.toNat % 128 = 128 ||| b.toNat % 128 :=
      Nat.two_pow_add_eq_or_of_lt (show b.toNat % 128 < 2 ^ 7 by omega) 1
    change 128 ||| b.toNat % 128 = b.toNat
    omega
  · change 0 ||| b.toNat % 128 = b.toNat
    rw [Nat.zero_or]
    omega

theorem length_begun (low : Nat) (small : low < 128) (rest : Bytes) :
    ∃ (form : LengthForm) (len e : Nat), form.low len = low ∧ len < form.capacity ∧
      form.extension len = padded rest 0 e := by
  by_cases short : low = 126
  · refine ⟨.sixteen, BigEndian.value (padded rest 0 2), 2, short.symm, ?_, ?_⟩
    · have bound := BigEndian.value_lt (padded rest 0 2)
      rw [length_padded] at bound
      exact bound
    · have digits := BigEndian.digits_value (padded rest 0 2)
      rw [length_padded] at digits
      exact digits
  by_cases long : low = 127
  · refine ⟨.sixtyFour, BigEndian.value (padded rest 0 8), 8, long.symm, ?_, ?_⟩
    · have bound := BigEndian.value_lt (padded rest 0 8)
      rw [length_padded] at bound
      exact bound
    · have digits := BigEndian.digits_value (padded rest 0 8)
      rw [length_padded] at digits
      exact digits
  · exact ⟨.seven, low, 0, rfl, by simp only [LengthForm.capacity]; omega, rfl⟩

/- Any bytes behind any two header bytes are the beginning of a frame, or have one at their
   front. -/
theorem wire_begun (b0 b1 : UInt8) (rest : Bytes) :
    ∃ (w : WireFrame) (n : Nat), w.wire = b0 :: b1 :: padded rest 0 n := by
  obtain ⟨fin, rsv, opcode, first⟩ := first_parts b0
  obtain ⟨form, len, e, low, fits, extension⟩ :=
    length_begun (b1.toNat % 128) (Nat.mod_lt _ (by decide)) rest
  have second := second_parts b1
  have whole (n : Nat) := padded_append rest 0 e n
  simp only [Nat.zero_add] at whole
  by_cases masked : 128 ≤ b1.toNat
  · have four : List.ofFn (fun i : Fin 4 => rest.getD (e + i) 0) = padded rest e 4 := rfl
    refine ⟨⟨fin, rsv, opcode, some fun i => rest.getD (e + i) 0, form, padded rest (e + 4) len,
      by rw [length_padded]; exact fits⟩, e + (4 + len), ?_⟩
    simp only [WireFrame.wire, WireFrame.firstByte, WireFrame.secondByte, WireFrame.maskBit,
      WireFrame.key, Option.isSome_some, Option.map_some, Option.getD_some, ↓reduceIte, first,
      length_padded, low, extension, four, padded_append]
    rw [if_pos masked] at second
    rw [second, whole]
  · refine ⟨⟨fin, rsv, opcode, none, form, padded rest e len,
      by rw [length_padded]; exact fits⟩, e + len, ?_⟩
    simp only [WireFrame.wire, WireFrame.firstByte, WireFrame.secondByte, WireFrame.maskBit,
      WireFrame.key, Option.isSome_none, Option.map_none, Option.getD_none, Bool.false_eq_true,
      ↓reduceIte, first, length_padded, low, extension, List.nil_append]
    rw [if_neg masked] at second
    rw [second, whole]

theorem begins_frame (b : Bytes) :
    ∃ w : WireFrame, (b <+: w.wire ∧ b.length < w.wire.length) ∨ w.wire <+: b := by
  match b with
  | [] =>
    obtain ⟨w, n, wire⟩ := wire_begun 0 0 []
    exact ⟨w, Or.inl ⟨List.nil_prefix, by simp [wire]⟩⟩
  | [b0] =>
    obtain ⟨w, n, wire⟩ := wire_begun b0 0 []
    exact ⟨w, Or.inl ⟨⟨0 :: padded [] 0 n, wire.symm⟩, by simp [wire]⟩⟩
  | b0 :: b1 :: rest =>
    obtain ⟨w, n, wire⟩ := wire_begun b0 b1 rest
    refine ⟨w, ?_⟩
    by_cases missing : rest.length < n
    · left
      rw [wire]
      refine ⟨⟨padded rest rest.length (n - rest.length), ?_⟩, by simpa using missing⟩
      rw [padded_behind rest (Nat.le_of_lt missing)]
      rfl
    · right
      rw [wire, padded_take rest (by omega)]
      exact ⟨rest.drop n, by simp⟩

theorem readFrame_settled (limit : Nat) (rm : Bool) (w : WireFrame) :
    readFrame limit rm w.wire 0 ≠ .error .incomplete := by
  by_cases rules : HeaderRules w limit rm
  · simp [readFrame_wire w rules]
  · obtain ⟨what, refused⟩ := readFrame_refused w rules
    simp [refused]

theorem incomplete_none {limit : Nat} {rm : Bool} {b : Bytes}
    (stuck : readFrame limit rm b 0 = .error .incomplete) (w : WireFrame) : ¬ w.wire <+: b := by
  rintro ⟨rest, rfl⟩
  have settled := readFrame_settled limit rm w
  rw [readFrame_grow rest (Nat.zero_le _) settled] at stuck
  exact settled stuck

/-- What feed keeps for the next call: an unfinished frame and nothing else. -/
structure HeldBack (limit : Nat) (p : WebSocketStreamParser) : Prop where
  compacted : p.parse_offset_ = 0
  proper : ∃ w : WireFrame, p.buffer_ <+: w.wire ∧ p.buffer_.length < w.wire.length
  unfinished : ∀ w : WireFrame, ¬ w.wire <+: p.buffer_
  short : p.buffer_.length < 14 + limit

/-- The cursor never leaves the buffer, also where a throw has left it. -/
def CursorInside (p : WebSocketStreamParser) : Prop := p.parse_offset_ ≤ p.buffer_.length

/- One execution of the loop: no fault, and when it breaks the loop has looked at the rest. -/
theorem checkedLoop_safe (limit fuel : Nat) {p : WebSocketStreamParser} (inside : CursorInside p)
    (enough : p.buffer_.length - p.parse_offset_ < fuel) :
    checkedLoop limit fuel p = .ok (parseLoop limit fuel p) ∧
      CursorInside (parseLoop limit fuel p).parser ∧
      ((parseLoop limit fuel p).thrown = none →
        let q := (parseLoop limit fuel p).parser
        readFrame limit q.require_mask_ q.buffer_ q.parse_offset_ = .error .incomplete) := by
  induction fuel generalizing p with
  | zero => omega
  | succ fuel ih =>
    have safe := checkedFrame_safe limit p.require_mask_ inside
    unfold Safe at safe
    cases read : readFrame limit p.require_mask_ p.buffer_ p.parse_offset_ with
    | error halt =>
      cases halt with
      | incomplete =>
        simp only [checkedLoop, parseLoop, safe, read]
        exact ⟨rfl, inside, fun _ => trivial⟩
      | invalid what =>
        simp only [checkedLoop, parseLoop, safe, read]
        exact ⟨rfl, inside, by simp⟩
    | ok found =>
      obtain ⟨f, idx⟩ := found
      have bounds := readFrame_bounds inside read
      have keeps := acceptFrame_keeps { p with parse_offset_ := idx } f
      cases accepted : acceptFrame { p with parse_offset_ := idx } f with
      | mk p' verdict =>
        rw [accepted] at keeps
        obtain ⟨buffer, offset, _, _⟩ := keeps
        have inside' : CursorInside p' := by
          unfold CursorInside
          rw [buffer, offset]
          exact bounds.2
        cases verdict with
        | error what =>
          simp only [checkedLoop, parseLoop, safe, read, bind, Except.bind, accepted]
          exact ⟨rfl, inside', by simp⟩
        | ok frames =>
          -- the frame took at least two bytes, so the rest of the fuel is enough
          obtain ⟨same, stays, waits⟩ := ih inside' (by rw [buffer, offset]; dsimp only; omega)
          simp only [checkedLoop, parseLoop, safe, read, bind, Except.bind, accepted, same]
          exact ⟨rfl, stays, waits⟩

theorem checkedCompact_safe {p : WebSocketStreamParser} (inside : CursorInside p) :
    checkedCompact p = .ok (compact p) := by
  unfold checkedCompact compact
  by_cases moved : p.parse_offset_ > 0
  · unfold CursorInside at inside
    rw [if_pos moved, if_pos inside]
  · have start : p.parse_offset_ = 0 := by omega
    rw [if_neg moved, start, List.drop_zero, ← start]

theorem compact_held {limit : Nat} {p : WebSocketStreamParser} (inside : CursorInside p)
    (stuck : readFrame limit p.require_mask_ p.buffer_ p.parse_offset_ = .error .incomplete) :
    HeldBack limit (compact p) := by
  have rest : readFrame limit p.require_mask_ (p.buffer_.drop p.parse_offset_) 0 =
      .error .incomplete := by
    rw [readFrame_unread limit p.require_mask_ inside] at stuck
    cases read : readFrame limit p.require_mask_ (p.buffer_.drop p.parse_offset_) 0 with
    | error halt =>
      rw [read] at stuck
      simpa [shifted, Except.map] using stuck
    | ok found =>
      rw [read] at stuck
      simp [shifted, Except.map] at stuck
  have short := readFrame_incomplete rest
  obtain ⟨w, proper | complete⟩ := begins_frame (p.buffer_.drop p.parse_offset_)
  · exact ⟨rfl, ⟨w, proper⟩, incomplete_none rest, by rwa [Nat.zero_add] at short⟩
  · exact absurd complete (incomplete_none rest w)

theorem checkedFrames_safe (env : Environment) (seen : NonceTable) {p : WebSocketStreamParser}
    (inside : CursorInside p) (producedAccept : Bool) (response : Bytes) :
    checkedFrames env seen p producedAccept response =
        .ok (parseFrames env seen p producedAccept response) ∧
      CursorInside (parseFrames env seen p producedAccept response).parser ∧
      ((parseFrames env seen p producedAccept response).thrown = none →
        HeldBack (maxPayloadLimit env)
          (parseFrames env seen p producedAccept response).parser) := by
  obtain ⟨same, stays, waits⟩ :=
    checkedLoop_safe (maxPayloadLimit env) (p.buffer_.length + 1) inside (by omega)
  unfold checkedFrames parseFrames
  simp only [same, bind, Except.bind, pure, Except.pure]
  cases thrown : (parseLoop (maxPayloadLimit env) (p.buffer_.length + 1) p).thrown with
  | none =>
    simp only [Option.isNone_none, ↓reduceIte, checkedCompact_safe stays]
    have held := compact_held stays (waits thrown)
    exact ⟨trivial, Nat.le_trans (Nat.le_of_eq held.compacted) (Nat.zero_le _), fun _ => held⟩
  | some what =>
    simp only [Option.isNone_some, Bool.false_eq_true, ↓reduceIte]
    exact ⟨trivial, stays, by simp⟩

theorem checkedFeed_safe (ssl : OpenSsl) (env : Environment) (now : UInt64) (seen : NonceTable)
    {p : WebSocketStreamParser} (inside : CursorInside p) (data : Bytes) :
    checkedFeed ssl env now seen p data = .ok (feed ssl env now seen p data) ∧
      CursorInside (feed ssl env now seen p data).parser ∧
      ((feed ssl env now seen p data).thrown = none →
        (feed ssl env now seen p data).parser.state_ = .Open →
          HeldBack (maxPayloadLimit env) (feed ssl env now seen p data).parser) := by
  have longer : CursorInside { p with buffer_ := p.buffer_ ++ data } := by
    unfold CursorInside at inside ⊢
    simp only [List.length_append]
    omega
  cases mode : p.state_ with
  | Open =>
    obtain ⟨same, stays, held⟩ := checkedFrames_safe env seen longer false []
    simp only [checkedFeed, feed, mode] at same stays held ⊢
    exact ⟨same, stays, fun live _ => held live⟩
  | AwaitingHttpUpgrade =>
    simp only [checkedFeed, feed, mode] at longer ⊢
    cases upgrade : tryConsumeUpgrade ssl env now seen
        { p with state_ := .AwaitingHttpUpgrade, buffer_ := p.buffer_ ++ data } with
    | none => exact ⟨rfl, longer, by simp⟩
    | some outcome =>
      obtain ⟨answer, seen'⟩ := outcome
      cases answer with
      | error what => exact ⟨rfl, longer, by simp⟩
      | ok next =>
        obtain ⟨response, q⟩ := next
        have start : CursorInside q := by
          simp only [tryConsumeUpgrade] at upgrade
          split at upgrade
          · contradiction
          · split at upgrade
            · simp at upgrade
            · simp only [Option.some.injEq, Prod.mk.injEq, Except.ok.injEq] at upgrade
              rw [← upgrade.1.2]
              exact Nat.zero_le _
        obtain ⟨same, stays, held⟩ := checkedFrames_safe env seen' start true response
        exact ⟨same, stays, fun live _ => held live⟩

def CursorKept (ssl : OpenSsl) (env : Environment) (p : WebSocketStreamParser) :
    ParserCall → Prop
  | .feed now seen data =>
      let r := feed ssl env now seen p data
      checkedFeed ssl env now seen p data = .ok r ∧
        (r.thrown = none → r.parser.state_ = .Open → HeldBack (maxPayloadLimit env) r.parser)
  | .setOpenMode => True

theorem calls_inside (ssl : OpenSsl) (env : Environment) (requireMaskFromPeer : Bool)
    (calls : List ParserCall) :
    ∀ t ∈ Run.steps (callParser ssl env) (construct requireMaskFromPeer) calls,
      CursorInside t.before := by
  have keeps (p : WebSocketStreamParser) (call : ParserCall) (inside : CursorInside p)
      (_ : True) : CursorInside (callParser ssl env p call).1 := by
    cases call with
    | feed now seen data => exact (checkedFeed_safe ssl env now seen inside data).2.1
    | setOpenMode => exact Nat.zero_le _
  exact (Run.invariant_steps CursorInside (fun _ _ => True) keeps (Nat.zero_le _)
    (fun _ _ => trivial)).1

/-- However a parser was used before, by calls that returned or threw, no index of the frame loop
    wraps or leaves the buffer, and a call that returns keeps no complete frame. -/
theorem frame_loop_indices (ssl : OpenSsl) (env : Environment) (requireMaskFromPeer : Bool)
    (calls : List ParserCall) :
    ∀ t ∈ Run.steps (callParser ssl env) (construct requireMaskFromPeer) calls,
      CursorKept ssl env t.before t.input := by
  intro t mem
  have inside := calls_inside ssl env requireMaskFromPeer calls t mem
  cases input : t.input with
  | feed now seen data =>
    obtain ⟨same, _, held⟩ := checkedFeed_safe ssl env now seen inside data
    exact ⟨same, held⟩
  | setOpenMode => trivial

/- The length of a frame whose payload is still to come, behind a continuation that was refused. -/
theorem refused_then_begun :
    CursorKept ⟨id, id⟩ ⟨none, none⟩
      { setOpenMode (construct false) with buffer_ := [0x80, 0x00], parse_offset_ := 2 }
      (.feed 0 [] [0x82, 0x7E, 0x01]) :=
  frame_loop_indices ⟨id, id⟩ ⟨none, none⟩ false
    [.setOpenMode, .feed 0 [] [0x80, 0x00], .feed 0 [] [0x82, 0x7E, 0x01]]
    ⟨_, _, _, _⟩ (List.mem_cons_of_mem _ (List.mem_cons_of_mem _ (List.mem_singleton_self _)))

end StreamParser
