import WebsocketServer.Library.CString

/- White space, trimming, lines and signed numbers as the C library reads them. -/
namespace CText
open CString

def isspace (b : UInt8) : Bool := b.toNat = 32 || (9 ≤ b.toNat && b.toNat ≤ 13)

section
variable {α : Type*} (p : α → Bool)

def strip (s : List α) : List α := (s.dropWhile p).rdropWhile p

theorem strip_nil_iff {s : List α} : strip p s = [] ↔ ∀ a ∈ s, p a = true := by
  constructor
  · intro empty a member
    have tail := List.rdropWhile_eq_nil_iff.mp empty
    rw [← List.takeWhile_append_dropWhile (p := p) (l := s)] at member
    rcases List.mem_append.mp member with front | behind
    · exact List.mem_takeWhile_imp front
    · exact tail a behind
  · intro all
    rw [strip, List.dropWhile_eq_nil_iff.mpr all, List.rdropWhile_nil]

theorem head_strip (s : List α) : (strip p s).head? = (s.dropWhile p).head? := by
  have first := List.head?_dropWhile_not p s
  unfold strip
  cases rest : s.dropWhile p with
  | nil => simp
  | cons c cs =>
    rw [rest] at first
    have start := List.rdropWhile_prefix p (c :: cs)
    cases shorter : (c :: cs).rdropWhile p with
    | nil =>
      have all := List.rdropWhile_eq_nil_iff.mp shorter c List.mem_cons_self
      simp [all] at first
    | cons d ds =>
      rw [shorter] at start
      rw [(List.cons_prefix_cons.mp start).1]
      rfl

theorem strip_led {s : List α} {c : α} (kept : p c = false) :
    (strip p s).head? = some c ↔
      ∃ before rest, s = before ++ c :: rest ∧ ∀ a ∈ before, p a = true := by
  rw [head_strip]
  constructor
  · intro first
    obtain ⟨rest, behind⟩ := List.head?_eq_some_iff.mp first
    refine ⟨s.takeWhile p, rest, ?_, fun a => List.mem_takeWhile_imp⟩
    rw [← behind, List.takeWhile_append_dropWhile]
  · rintro ⟨before, rest, rfl, blank⟩
    rw [List.dropWhile_append_of_pos blank, List.dropWhile_cons_of_neg (by simp [kept])]
    rfl

theorem strip_split (s : List α) : ∃ left right, s = left ++ (strip p s ++ right) ∧
    (∀ a ∈ left, p a = true) ∧ ∀ a ∈ right, p a = true := by
  refine ⟨s.takeWhile p, (s.dropWhile p).rtakeWhile p, ?_, ?_, ?_⟩
  · rw [strip, List.rdropWhile_append_rtakeWhile, List.takeWhile_append_dropWhile]
  · exact fun a => List.mem_takeWhile_imp
  · exact fun a => List.mem_rtakeWhile_imp

variable {p}

theorem rdropWhile_absorbs {right : List α} (behind : ∀ a ∈ right, p a = true) (s : List α) :
    (s ++ right).rdropWhile p = s.rdropWhile p := by
  unfold List.rdropWhile
  rw [List.reverse_append, List.dropWhile_append_of_pos]
  intro a member
  exact behind a (List.mem_reverse.mp member)

theorem strip_absorbs {right : List α} (behind : ∀ a ∈ right, p a = true) (s : List α) :
    strip p (s ++ right) = strip p s := by
  unfold strip
  rw [List.dropWhile_append]
  split
  · rename_i empty
    rw [List.isEmpty_iff] at empty
    rw [empty, List.dropWhile_eq_nil_iff.mpr behind]
  · exact rdropWhile_absorbs behind _

theorem strip_padded {left s right : List α} (before : ∀ a ∈ left, p a = true)
    (behind : ∀ a ∈ right, p a = true) (first : ∀ a, s.head? = some a → p a = false)
    (last : ∀ a, s.getLast? = some a → p a = false) : strip p (left ++ (s ++ right)) = s := by
  rw [strip, List.dropWhile_append_of_pos before]
  cases s with
  | nil => rw [List.nil_append, List.dropWhile_eq_nil_iff.mpr behind, List.rdropWhile_nil]
  | cons a s =>
    have stays : ¬ p a = true := by simp [first a rfl]
    rw [List.cons_append, List.dropWhile_cons_of_neg stays, ← List.cons_append,
      rdropWhile_absorbs behind, List.rdropWhile_eq_self_iff]
    intro full
    simp [last _ (List.getLast?_eq_some_getLast full)]

end

section
variable {α : Type*} [BEq α] [LawfulBEq α] {c : α}

theorem piece_lacks {s piece : List α} (member : piece ∈ s.splitOn c) : c ∉ piece := by
  induction s generalizing piece with
  | nil =>
    rw [List.splitOn_nil, List.mem_singleton] at member
    simp [member]
  | cons a s ih =>
    rw [List.splitOn_cons_eq_if_modifyHead] at member
    split at member
    · rcases List.mem_cons.mp member with rfl | later
      · simp
      · exact ih later
    · rename_i other
      cases pieces : s.splitOn c with
      | nil => exact absurd pieces (List.splitOn_ne_nil c s)
      | cons first rest =>
        rw [pieces] at ih member
        rcases List.mem_cons.mp member with rfl | later
        · have apart : a ≠ c := by simpa using other
          simp [Ne.symm apart, ih List.mem_cons_self]
        · exact ih (List.mem_cons_of_mem _ later)

theorem splitOn_lines {lines : List (List α)} (single : ∀ line ∈ lines, c ∉ line) :
    (lines.flatMap (· ++ [c])).splitOn c = lines ++ [[]] := by
  induction lines with
  | nil => rfl
  | cons line lines ih =>
    rw [List.forall_mem_cons] at single
    have shape : (line :: lines).flatMap (· ++ [c]) = line ++ c :: lines.flatMap (· ++ [c]) := by
      simp
    rw [shape, List.splitOn_append_cons_self_of_not_mem single.1, ih single.2]
    rfl

/- A text is made of these lines, each ended by c, exactly when it is all of them one behind the
   other and none of them contains c. -/
theorem splitOn_lines_iff {s : List α} {lines : List (List α)} :
    s.splitOn c = lines ++ [[]] ↔ s = lines.flatMap (· ++ [c]) ∧ ∀ line ∈ lines, c ∉ line := by
  constructor
  · intro pieces
    have single : ∀ line ∈ lines, c ∉ line := by
      intro line member
      exact piece_lacks (by rw [pieces]; exact List.mem_append_left _ member)
    have whole : [c].intercalate (s.splitOn c) = s := List.intercalate_splitOn c
    refine ⟨?_, single⟩
    rw [← whole, pieces, ← splitOn_lines single, List.intercalate_splitOn]
  · rintro ⟨rfl, single⟩
    exact splitOn_lines single

end

theorem flatMap_whole_iff {α β : Type*} {f g : β → List α} {bs : List β}
    (starts : ∀ b ∈ bs, f b <+: g b) : bs.flatMap f = bs.flatMap g ↔ ∀ b ∈ bs, f b = g b := by
  have shorter (bs : List β) (starts : ∀ b ∈ bs, f b <+: g b) :
      (bs.flatMap f).length ≤ (bs.flatMap g).length := by
    rw [List.length_flatMap, List.length_flatMap]
    exact List.sum_le_sum fun b member => (starts b member).length_le
  induction bs with
  | nil => simp
  | cons b bs ih =>
    rw [List.forall_mem_cons] at starts ⊢
    have rest := shorter bs starts.2
    rw [List.flatMap_cons, List.flatMap_cons]
    constructor
    · intro same
      have sizes := congrArg List.length same
      simp only [List.length_append] at sizes
      have first : f b = g b := starts.1.eq_of_length_le (by omega)
      rw [first] at same
      exact ⟨first, (ih starts.2).mp (List.append_cancel_left same)⟩
    · rintro ⟨first, later⟩
      rw [first, (ih starts.2).mpr later]

def digitsValue (digits : Bytes) : Nat := digits.foldl (fun v b => 10 * v + (b.toNat - 48)) 0

/-- A number out of the range of long becomes the nearest one in it. -/
def clampLong (v : Int) : Int := max (-2 ^ 63) (min v (2 ^ 63 - 1))

/-- std::strtol in base 10 on a 64-bit platform; none when it converts nothing. The NUL that ends
    its argument is no space, sign or digit. -/
def strtol (s : Bytes) : Option Int :=
  let s := s.dropWhile isspace
  let digits := (if s.head? = some 45 ∨ s.head? = some 43 then s.tail else s).takeWhile isDigit
  if digits = [] then none
  else
    some (clampLong (if s.head? = some 45 then -(digitsValue digits : Int) else digitsValue digits))

/-- A conversion to a signed type of w bits, as the compilers have it. -/
def signedCast (w : Nat) (v : Int) : Int := v.bmod (2 ^ w)

/-- std::atoi: strtol cast to int, and 0 when nothing is converted. -/
def atoi (s : Bytes) : Int := signedCast 32 ((strtol s).getD 0)

/-- The usual ways of writing a number: white space, a sign, zeros in front. A plus or no sign
    stands before a number that is not negative, a minus before one that is not positive. -/
structure Spelling (n : Int) where
  before : Bytes
  sign : Bytes
  zeros : Nat
  behind : Bytes
  before_blank : ∀ b ∈ before, isspace b = true
  behind_blank : ∀ b ∈ behind, isspace b = true
  signed : (0 ≤ n ∧ (sign = [] ∨ sign = [43])) ∨ (n ≤ 0 ∧ sign = [45])

section
variable {n : Int} (w : Spelling n)

def Spelling.digits : Bytes := List.replicate w.zeros 48 ++ decimal n.natAbs

def Spelling.text : Bytes := w.before ++ (w.sign ++ (w.digits ++ w.behind))

theorem digitsValue_decimal (n : Nat) : digitsValue (decimal n) = n := by
  have same := Nat.ofDigitChars_ten_toDigits (n := n)
  rw [Nat.ofDigitChars_eq_foldl] at same
  rw [digitsValue, decimal, List.foldl_map]
  refine Eq.trans ?_ same
  apply List.foldl_ext
  intro v c member
  rw [digitByte_toNat (Nat.isDigit_of_mem_toDigits (by decide) (by decide) member)]
  rfl

theorem digitsValue_zeros (k : Nat) (digits : Bytes) :
    digitsValue (List.replicate k 48 ++ digits) = digitsValue digits := by
  induction k with
  | zero => rfl
  | succ k ih => exact ih

theorem spelling_digits {b : UInt8} (member : b ∈ w.digits) : isDigit b = true := by
  rcases List.mem_append.mp member with zero | digit
  · rw [List.eq_of_mem_replicate zero]
    rfl
  · exact decimal_digits digit

theorem blank_no_digit {b : UInt8} (blank : isspace b = true) : isDigit b = false := by
  simp only [isspace, Bool.or_eq_true, decide_eq_true_eq, Bool.and_eq_true] at blank
  simp only [isDigit, Bool.and_eq_false_iff, decide_eq_false_iff_not]
  omega

theorem digit_no_blank {b : UInt8} (digit : isDigit b = true) : isspace b = false := by
  cases blank : isspace b with
  | false => rfl
  | true => exact absurd digit (by simp [blank_no_digit blank])

theorem takeWhile_spelling : (w.digits ++ w.behind).takeWhile isDigit = w.digits := by
  rw [List.takeWhile_append_of_pos fun b member => spelling_digits w member]
  cases behind : w.behind with
  | nil => simp
  | cons b rest =>
    have blank := w.behind_blank b (by simp [behind])
    rw [List.takeWhile_cons_of_neg (by simp [blank_no_digit blank]), List.append_nil]

theorem spelling_value : digitsValue w.digits = n.natAbs := by
  rw [Spelling.digits, digitsValue_zeros, digitsValue_decimal]

theorem strtol_spelling : strtol w.text = some (clampLong n) := by
  have some_digit : w.digits ≠ [] := by simp [Spelling.digits, decimal_ne_nil]
  obtain ⟨first, rest, digits⟩ := List.exists_cons_of_ne_nil some_digit
  have digit := spelling_digits w (b := first) (by simp [digits])
  have row := takeWhile_spelling w
  have value := spelling_value w
  have no_sign : first ≠ 45 ∧ first ≠ 43 := by
    constructor
    · rintro rfl
      simp [isDigit] at digit
    · rintro rfl
      simp [isDigit] at digit
  unfold strtol Spelling.text
  rw [List.dropWhile_append_of_pos w.before_blank]
  rcases w.signed with ⟨natural, none | plus⟩ | ⟨small, minus⟩
  · rw [none, List.nil_append, digits, List.cons_append,
      List.dropWhile_cons_of_neg (by simp [digit_no_blank digit]), ← List.cons_append, ← digits]
    have head : (w.digits ++ w.behind).head? = some first := by simp [digits]
    simp only [head, Option.some.injEq, no_sign.1, no_sign.2, or_self, ↓reduceIte, row, some_digit,
      value]
    rw [Int.natAbs_of_nonneg natural]
  · have apart : ¬ (43 : UInt8) = 45 := by decide
    rw [plus, List.singleton_append, List.dropWhile_cons_of_neg (by decide)]
    simp only [List.head?_cons, Option.some.injEq, apart, or_true, ↓reduceIte, List.tail_cons, row,
      some_digit, value]
    rw [Int.natAbs_of_nonneg natural]
  · rw [minus, List.singleton_append, List.dropWhile_cons_of_neg (by decide)]
    simp only [List.head?_cons, true_or, ↓reduceIte, List.tail_cons, row, some_digit, value]
    rw [Int.ofNat_natAbs_of_nonpos small, Int.neg_neg]

theorem atoi_spelling : atoi w.text = signedCast 32 (clampLong n) := by
  rw [atoi, strtol_spelling]
  rfl

end

end CText
