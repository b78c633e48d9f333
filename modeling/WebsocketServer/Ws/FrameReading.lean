import WebsocketServer.Ws.StreamParser

/- What readFrame depends on: a verdict other than "incomplete" is settled by the bytes seen
   so far, and only the bytes from parse_offset_ on matter. -/
namespace StreamParser
open WebSocketCodec

section
variable {β γ : Type} {x x' : Except Halt β} {f f' : β → Except Halt γ}

/- If the first computation keeps its verdict and the second keeps its own, so does the sequence. -/
theorem bind_settles (first : x ≠ .error .incomplete → x' = x)
    (second : ∀ a, x = .ok a → f a ≠ .error .incomplete → f' a = f a)
    (done : (x >>= f) ≠ .error .incomplete) : (x' >>= f') = (x >>= f) := by
  cases hx : x with
  | error e =>
    have keep : x ≠ .error .incomplete := by
      rintro stuck
      simp only [stuck, bind, Except.bind, ne_eq, not_true_eq_false] at done
    rw [first keep, hx]
    rfl
  | ok a =>
    rw [first (by simp [hx]), hx]
    simp only [hx, bind, Except.bind] at done ⊢
    exact second a hx done

theorem bind_ok {y : γ} (h : (x >>= f) = .ok y) : ∃ a, x = .ok a ∧ f a = .ok y := by
  cases x with
  | error e => simp [bind, Except.bind] at h
  | ok a => exact ⟨a, rfl, h⟩

end

theorem pair_ok {β : Type} {a x : β} {i j : Nat}
    (h : (pure (a, i) : Except Halt (β × Nat)) = .ok (x, j)) : a = x ∧ i = j := by
  simpa only [pure, Except.pure, Except.ok.injEq, Prod.mk.injEq] using h

theorem need_ok {b : Bytes} {idx n : Nat} {u : Unit} (h : need b idx n = .ok u)
    (bound : idx ≤ b.length) : idx + n ≤ b.length := by
  unfold need at h
  split at h
  · contradiction
  · omega

theorem need_grow {b : Bytes} (c : Bytes) {idx n : Nat}
    (done : need b idx n ≠ .error .incomplete) : need (b ++ c) idx n = need b idx n := by
  unfold need at done ⊢
  by_cases short : b.length - idx < n
  · simp [short] at done
  · rw [if_neg short, if_neg]
    simp only [List.length_append]
    omega

theorem drop_take_grow {b : Bytes} (c : Bytes) {idx n : Nat} (bound : idx + n ≤ b.length) :
    ((b ++ c).drop idx).take n = (b.drop idx).take n := by
  rw [List.drop_append_of_le_length (by omega), List.take_append_of_le_length]
  simp only [List.length_drop]
  omega

theorem getD_grow {b : Bytes} (c : Bytes) {idx : Nat} (bound : idx < b.length) :
    (b ++ c).getD idx 0 = b.getD idx 0 := by
  simp [List.getElem?_append_left bound]

theorem extendedLength_grow {b : Bytes} (c : Bytes) {idx n : Nat} (bound : idx ≤ b.length)
    (done : extendedLength b idx n ≠ .error .incomplete) :
    extendedLength (b ++ c) idx n = extendedLength b idx n := by
  unfold extendedLength at done ⊢
  by_cases short : n = 126
  · rw [if_pos short] at done
    rw [if_pos short, if_pos short]
    refine bind_settles (need_grow c) (fun _ ok _ => ?_) done
    rw [drop_take_grow c (need_ok ok bound)]
  · by_cases long : n = 127
    · rw [if_neg short, if_pos long] at done
      rw [if_neg short, if_pos long, if_neg short, if_pos long]
      refine bind_settles (need_grow c) (fun _ ok _ => ?_) done
      rw [drop_take_grow c (need_ok ok bound)]
    · rw [if_neg short, if_neg long, if_neg short, if_neg long]

theorem extendedLength_ok {b : Bytes} {idx n len idx' : Nat} (bound : idx ≤ b.length)
    (h : extendedLength b idx n = .ok (len, idx')) : idx ≤ idx' ∧ idx' ≤ b.length := by
  unfold extendedLength at h
  split at h
  · obtain ⟨u, ok, tail⟩ := bind_ok h
    have room := need_ok ok bound
    have place := (pair_ok tail).2
    omega
  · split at h
    · obtain ⟨u, ok, tail⟩ := bind_ok h
      have room := need_ok ok bound
      have place := (pair_ok tail).2
      omega
    · have place := (pair_ok h).2
      omega

theorem readMaskKey_grow {b : Bytes} (c : Bytes) {rm masked : Bool} {idx : Nat}
    (bound : idx ≤ b.length) (done : readMaskKey rm masked b idx ≠ .error .incomplete) :
    readMaskKey rm masked (b ++ c) idx = readMaskKey rm masked b idx := by
  unfold readMaskKey at done ⊢
  by_cases hm : masked
  · rw [if_pos hm] at done
    rw [if_pos hm, if_pos hm]
    refine bind_settles (need_grow c) (fun _ ok _ => ?_) done
    have room := need_ok ok bound
    simp only [pure, Except.pure, Except.ok.injEq, Prod.mk.injEq, and_true]
    funext i
    exact getD_grow c (by omega)
  · rw [if_neg hm, if_neg hm]

theorem readMaskKey_ok {b : Bytes} {rm masked : Bool} {idx idx' : Nat} {key : MaskKey}
    (bound : idx ≤ b.length) (h : readMaskKey rm masked b idx = .ok (key, idx')) :
    idx ≤ idx' ∧ idx' ≤ b.length := by
  unfold readMaskKey at h
  split at h
  · obtain ⟨u, ok, tail⟩ := bind_ok h
    have room := need_ok ok bound
    have place := (pair_ok tail).2
    omega
  · obtain ⟨u, ok, tail⟩ := bind_ok h
    have place := (pair_ok tail).2
    omega

/- Bytes that arrive later do not change a verdict the parser has already reached. -/
theorem readFrame_grow {b : Bytes} (c : Bytes) {limit off : Nat} {rm : Bool}
    (bound : off ≤ b.length) (done : readFrame limit rm b off ≠ .error .incomplete) :
    readFrame limit rm (b ++ c) off = readFrame limit rm b off := by
  unfold readFrame at done ⊢
  refine bind_settles (need_grow c) (fun _ ok rest => ?_) done
  have two := need_ok ok bound
  simp only [getD_grow c (show off < b.length by omega),
    getD_grow c (show off + 1 < b.length by omega)] at rest ⊢
  refine bind_settles (fun _ => rfl) (fun _ _ rest => ?_) rest
  refine bind_settles (fun _ => rfl) (fun _ _ rest => ?_) rest
  refine bind_settles (fun _ => rfl) (fun _ _ rest => ?_) rest
  refine bind_settles (extendedLength_grow c two) (fun len ok rest => ?_) rest
  have lenBound := extendedLength_ok two ok
  refine bind_settles (fun _ => rfl) (fun _ _ rest => ?_) rest
  refine bind_settles (readMaskKey_grow c lenBound.2) (fun key ok rest => ?_) rest
  have keyBound := readMaskKey_ok lenBound.2 ok
  refine bind_settles (need_grow c) (fun _ ok rest => ?_) rest
  have room := need_ok ok keyBound.2
  rw [drop_take_grow c room]

theorem readFrame_bounds {b : Bytes} {limit off n : Nat} {rm : Bool} {f : WsFrame}
    (bound : off ≤ b.length) (h : readFrame limit rm b off = .ok (f, n)) :
    off + 2 ≤ n ∧ n ≤ b.length := by
  unfold readFrame at h
  obtain ⟨_, ok, h⟩ := bind_ok h
  have two := need_ok ok bound
  obtain ⟨_, _, h⟩ := bind_ok h
  obtain ⟨_, _, h⟩ := bind_ok h
  obtain ⟨_, _, h⟩ := bind_ok h
  obtain ⟨len, ok, h⟩ := bind_ok h
  have lenBound := extendedLength_ok two ok
  obtain ⟨_, _, h⟩ := bind_ok h
  obtain ⟨key, ok, h⟩ := bind_ok h
  have keyBound := readMaskKey_ok lenBound.2 ok
  obtain ⟨_, ok, h⟩ := bind_ok h
  have room := need_ok ok keyBound.2
  have place := (pair_ok h).2
  omega

/- Reading behind a prefix is reading its tail, with every offset moved. -/
section
variable (pre b : Bytes)

def shifted {β : Type} (k : Nat) (r : Except Halt (β × Nat)) : Except Halt (β × Nat) :=
  r.map fun found => (found.1, k + found.2)

theorem need_shift (idx n : Nat) : need (pre ++ b) (pre.length + idx) n = need b idx n := by
  unfold need
  rw [List.length_append, Nat.add_sub_add_left]

theorem drop_shift (idx : Nat) : (pre ++ b).drop (pre.length + idx) = b.drop idx := by
  rw [List.drop_append, List.drop_eq_nil_of_le (by omega), List.nil_append]
  congr 1
  omega

theorem getD_shift (idx : Nat) : (pre ++ b).getD (pre.length + idx) 0 = b.getD idx 0 := by
  simp [List.getElem?_append_right]

theorem extendedLength_shift (idx n : Nat) :
    extendedLength (pre ++ b) (pre.length + idx) n =
      shifted pre.length (extendedLength b idx n) := by
  unfold extendedLength
  by_cases short : n = 126
  · rw [if_pos short, if_pos short, need_shift, drop_shift]
    cases need b idx 2 <;> rfl
  · rw [if_neg short, if_neg short]
    by_cases long : n = 127
    · rw [if_pos long, if_pos long, need_shift, drop_shift]
      cases need b idx 8 <;> rfl
    · rw [if_neg long, if_neg long]
      rfl

theorem readMaskKey_shift (rm masked : Bool) (idx : Nat) :
    readMaskKey rm masked (pre ++ b) (pre.length + idx) =
      shifted pre.length (readMaskKey rm masked b idx) := by
  unfold readMaskKey
  by_cases hm : masked
  · rw [if_pos hm, if_pos hm, need_shift]
    simp only [Nat.add_assoc, getD_shift]
    cases need b idx 4 <;> rfl
  · rw [if_neg hm, if_neg hm]
    cases reject rm "Masked bit not set on incoming frame" <;> rfl

theorem bind_shifted {β γ : Type} (k : Nat) (r : Except Halt (β × Nat))
    (f : β × Nat → Except Halt γ) :
    (shifted k r >>= f) = (r >>= fun found => f (found.1, k + found.2)) := by
  cases r <;> rfl

theorem shifted_bind {β γ : Type} (k : Nat) (r : Except Halt β) (f : β → Except Halt (γ × Nat)) :
    shifted k (r >>= f) = (r >>= fun a => shifted k (f a)) := by
  cases r <;> rfl

theorem readFrame_shift (limit : Nat) (rm : Bool) :
    readFrame limit rm (pre ++ b) pre.length = shifted pre.length (readFrame limit rm b 0) := by
  have first := getD_shift pre b 0
  have header := need_shift pre b 0 2
  simp only [Nat.add_zero] at first header
  unfold readFrame
  simp only [shifted_bind, header, first, getD_shift, extendedLength_shift, bind_shifted,
    readMaskKey_shift, need_shift, drop_shift, Nat.zero_add, Nat.add_assoc]
  rfl

end

/- What the parser sees at parse_offset_ is the unread part of its buffer. -/
theorem readFrame_unread (limit : Nat) (rm : Bool) {b : Bytes} {off : Nat}
    (bound : off ≤ b.length) :
    readFrame limit rm b off = shifted off (readFrame limit rm (b.drop off) 0) := by
  have h := readFrame_shift (b.take off) (b.drop off) limit rm
  rwa [List.take_append_drop, List.length_take, Nat.min_eq_left bound] at h

inductive Accepts (p : WebSocketStreamParser) (f : WsFrame) :
    WebSocketStreamParser × Except String (List WsFrame) → Prop where
  | refuses (what : String) (outside : f.opcode = 0x0 → p.in_fragment_ = false) :
      Accepts p f (p, .error what)
  | merges (continuation : f.opcode = 0x0) (inside : p.in_fragment_ = true) (more : f.fin = false) :
      Accepts p f ({ p with fragment_payload_ := p.fragment_payload_ ++ f.payload }, .ok [])
  | completes (continuation : f.opcode = 0x0) (inside : p.in_fragment_ = true)
      (last : f.fin = true) :
      Accepts p f ({ p with in_fragment_ := false, fragment_opcode_ := 0, fragment_payload_ := [] },
        .ok [{ opcode := p.fragment_opcode_, fin := true,
               payload := p.fragment_payload_ ++ f.payload }])
  | begins (data : f.opcode = 0x1 ∨ f.opcode = 0x2) (outside : p.in_fragment_ = false)
      (more : f.fin = false) :
      Accepts p f
        ({ p with
            in_fragment_ := true
            fragment_opcode_ := f.opcode
            fragment_payload_ := f.payload }, .ok [])
  | delivers (data : f.opcode = 0x1 ∨ f.opcode = 0x2) (outside : p.in_fragment_ = false)
      (last : f.fin = true) :
      Accepts p f (p, .ok [{ opcode := f.opcode, fin := true, payload := f.payload }])
  | controls (known : f.opcode = 0x8 ∨ f.opcode = 0x9 ∨ f.opcode = 0xA)
      (even : ¬ (f.opcode = 0x8 ∧ f.payload.length = 1)) :
      Accepts p f (p, .ok [{ opcode := f.opcode, fin := true, payload := f.payload }])

theorem acceptFrame_accepts (p : WebSocketStreamParser) (f : WsFrame) :
    Accepts p f (acceptFrame p f) := by
  unfold acceptFrame
  split
  · rename_i continuation
    split
    · rename_i outside
      exact .refuses _ fun _ => by simpa using outside
    · rename_i inside
      have inside : p.in_fragment_ = true := by simpa using inside
      dsimp only
      split
      · rename_i last
        exact .completes continuation inside last
      · rename_i more
        exact .merges continuation inside (by simpa using more)
  rename_i other
  have refused (what : String) : Accepts p f (p, .error what) :=
    .refuses what fun continuation => absurd continuation other
  split
  · rename_i data
    split
    · exact refused _
    · rename_i outside
      have outside : p.in_fragment_ = false := by simpa using outside
      split
      · rename_i last
        exact .delivers data outside last
      · rename_i more
        exact .begins data outside (by simpa using more)
  split
  · rename_i known
    split
    · exact refused _
    · rename_i even
      exact .controls known even
  · exact refused _

end StreamParser
