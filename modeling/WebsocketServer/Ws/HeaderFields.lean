import WebsocketServer.Ws.StreamParser

/- What an upgrade request says apart from how it is written: fields in any order, names in any
   case, values with spaces and tabs around them. -/
namespace Upgrade
open CString StreamParser

/-- A field line. The raw value is everything behind the colon. -/
structure Field where
  name : Bytes
  raw : Bytes
  name_bytes : ∀ b ∈ name, b ≠ 58 ∧ b ≠ 13 ∧ b ≠ 10
  raw_bytes : ∀ b ∈ raw, b ≠ 13 ∧ b ≠ 10

/-- A head: the method, a blank, the rest of the request line, and fields whose names are apart
    also when their case is not looked at. -/
structure RequestHead where
  method : Bytes
  target : Bytes
  fields : List Field
  method_bytes : ∀ b ∈ method, b ≠ 58 ∧ b ≠ 13 ∧ b ≠ 10
  target_bytes : ∀ b ∈ target, b ≠ 13 ∧ b ≠ 10
  distinct : (fields.map fun f => toLower f.name).Nodup

def kCRLF : Bytes := [13, 10]

def Field.line (f : Field) : Bytes := f.name ++ 58 :: f.raw

namespace RequestHead

def requestLine (h : RequestHead) : Bytes := h.method ++ 32 :: h.target

def lines (h : RequestHead) : List Bytes := h.requestLine :: h.fields.map Field.line

def bytes (h : RequestHead) : Bytes := h.lines.flatMap (· ++ kCRLF) ++ kCRLF

def rawValue (h : RequestHead) (name : Bytes) : Option Bytes :=
  (h.fields.find? fun f => toLower f.name = toLower name).map (·.raw)

end RequestHead

def isOws (b : UInt8) : Bool := b == 32 || b == 9

def trimOws (raw : Bytes) : Bytes := ((raw.dropWhile isOws).reverse.dropWhile isOws).reverse

def dropSpaces (raw : Bytes) : Bytes := raw.dropWhile (· == 32)

def keyName : Bytes := CString.bytes "Sec-WebSocket-Key"
def upgradeName : Bytes := CString.bytes "Upgrade"

def respondTo (ssl : OpenSsl) : Option Bytes → Option Bytes → Option Bytes
  | some key, some upgrade =>
      if key ≠ [] ∧ toLower upgrade = CString.bytes "websocket" then
        some (acceptResponse (computeAccept ssl key))
      else none
  | _, _ => none

/-- The decision that the fields' meaning calls for. -/
def RequestHead.decision (ssl : OpenSsl) (h : RequestHead) : Option Bytes :=
  respondTo ssl ((h.rawValue keyName).map trimOws) ((h.rawValue upgradeName).map trimOws)

def produced : Option (Except String (Bytes × WebSocketStreamParser) × NonceTable) → Option Bytes
  | some (.ok (response, _), _) => some response
  | _ => none

/-- Whatever follows the head, the parser decides by the meaning of the fields. -/
def FollowsMeaning (ssl : OpenSsl) (env : Environment) (h : RequestHead) : Prop :=
  ∀ (now : UInt64) (seen : NonceTable) (p : WebSocketStreamParser) (rest : Bytes),
    produced (tryConsumeUpgrade ssl env now seen { p with buffer_ := h.bytes ++ rest }) =
      h.decision ssl

def Plain (raw : Bytes) : Prop := dropSpaces raw = trimOws raw

theorem getLines_lines {lines : List Bytes} (plain : ∀ line ∈ lines, ∀ b ∈ line, b ≠ 13 ∧ b ≠ 10)
    (rest : Bytes) :
    getLines (lines.flatMap (· ++ kCRLF) ++ rest) = lines.map (· ++ [13]) ++ getLines rest := by
  induction lines with
  | nil => rfl
  | cons line lines ih =>
    have first : ∀ b ∈ line ++ [13], b ≠ 10 := by
      intro b member
      rcases List.mem_append.mp member with inside | last
      · exact (plain line List.mem_cons_self b inside).2
      · rw [List.mem_singleton.mp last]
        decide
    have tail := ih fun line member => plain line (List.mem_cons_of_mem _ member)
    have shape : (line :: lines).flatMap (· ++ kCRLF) ++ rest =
        (line ++ [13]) ++ 10 :: (lines.flatMap (· ++ kCRLF) ++ rest) := by
      simp [kCRLF]
    rw [shape, CString.getLines_line first, tail]
    rfl

theorem chomp_cr (line : Bytes) : chomp (line ++ [13]) = line := by simp [chomp]

theorem headEnd_skip {line : Bytes} (plain : ∀ b ∈ line, b ≠ 13) (rest : Bytes) :
    headEnd (line ++ rest) = (headEnd rest).map (· + line.length) := by
  induction line with
  | nil => simp
  | cons b line ih =>
    have first := plain b List.mem_cons_self
    have tail := ih fun b member => plain b (List.mem_cons_of_mem _ member)
    have other : ((b :: line) ++ rest).take 4 ≠ kCRLFCRLF := by
      intro same
      have heads := congrArg List.head? same
      simp only [List.cons_append, List.take_succ_cons, List.head?_cons] at heads
      exact first (Option.some.inj (heads.trans (by decide)))
    simp only [List.cons_append] at other
    rw [List.cons_append, headEnd, if_neg other, tail, Option.map_map]
    rfl

theorem headEnd_break {b : UInt8} (other : b ≠ 13) (rest : Bytes) :
    headEnd (kCRLF ++ b :: rest) = (headEnd (b :: rest)).map (· + 2) := by
  have terminator : kCRLFCRLF = [13, 10, 13, 10] := by decide
  have first : (13 :: 10 :: b :: rest).take 4 ≠ kCRLFCRLF := by
    rw [terminator]
    simp [other]
  have second : (10 :: b :: rest).take 4 ≠ kCRLFCRLF := by
    rw [terminator]
    simp
  rw [kCRLF, List.cons_append, List.cons_append, List.nil_append, headEnd, if_neg first, headEnd,
    if_neg second, Option.map_map]
  rfl

/- The head ends at the first blank line. -/
theorem headEnd_lines {line : Bytes} {lines : List Bytes}
    (plain : ∀ l ∈ line :: lines, ∀ b ∈ l, b ≠ 13 ∧ b ≠ 10) (filled : ∀ l ∈ lines, l ≠ [])
    (rest : Bytes) :
    headEnd ((line :: lines).flatMap (· ++ kCRLF) ++ kCRLF ++ rest) =
      some ((line :: lines).flatMap (· ++ kCRLF) ++ kCRLF).length := by
  induction lines generalizing line with
  | nil =>
    have here : headEnd (kCRLF ++ (kCRLF ++ rest)) = some 4 := rfl
    have shape :
        [line].flatMap (· ++ kCRLF) ++ kCRLF ++ rest = line ++ (kCRLF ++ (kCRLF ++ rest)) := by
      simp
    rw [shape, headEnd_skip fun b member => (plain line List.mem_cons_self b member).1, here]
    simp [kCRLF]
    omega
  | cons next lines ih =>
    have tail := @ih next (fun l member => plain l (List.mem_cons_of_mem _ member))
      (fun l member => filled l (List.mem_cons_of_mem _ member))
    cases shape : next with
    | nil => exact absurd shape (filled next List.mem_cons_self)
    | cons b next' =>
      have other : b ≠ 13 := by
        refine (plain next (by simp) b ?_).1
        rw [shape]
        exact List.mem_cons_self
      rw [shape] at tail
      have split : (line :: (b :: next') :: lines).flatMap (· ++ kCRLF) ++ kCRLF ++ rest =
          line ++ (kCRLF ++ (((b :: next') :: lines).flatMap (· ++ kCRLF) ++ kCRLF ++ rest)) := by
        simp
      have size : ((line :: (b :: next') :: lines).flatMap (· ++ kCRLF) ++ kCRLF).length =
          (((b :: next') :: lines).flatMap (· ++ kCRLF) ++ kCRLF).length + 2 + line.length := by
        simp [kCRLF]
        omega
      have break_here := headEnd_break other
        (next' ++ kCRLF ++ lines.flatMap (· ++ kCRLF) ++ kCRLF ++ rest)
      have same : b :: (next' ++ kCRLF ++ lines.flatMap (· ++ kCRLF) ++ kCRLF ++ rest) =
          ((b :: next') :: lines).flatMap (· ++ kCRLF) ++ kCRLF ++ rest := by simp
      rw [same, tail] at break_here
      rw [split, headEnd_skip fun b member => (plain line List.mem_cons_self b member).1,
        break_here, size]
      rfl

section
variable (h : RequestHead)

theorem lines_plain : ∀ line ∈ h.lines, ∀ b ∈ line, b ≠ 13 ∧ b ≠ 10 := by
  intro line member
  rcases List.mem_cons.mp member with rfl | field
  · intro b inside
    rcases List.mem_append.mp inside with early | late
    · exact (h.method_bytes b early).2
    · rcases List.mem_cons.mp late with rfl | target
      · decide
      · exact h.target_bytes b target
  · obtain ⟨f, _, rfl⟩ := List.mem_map.mp field
    intro b inside
    rcases List.mem_append.mp inside with early | late
    · exact (f.name_bytes b early).2
    · rcases List.mem_cons.mp late with rfl | raw
      · decide
      · exact f.raw_bytes b raw

theorem headEnd_head (rest : Bytes) : headEnd (h.bytes ++ rest) = some h.bytes.length := by
  refine headEnd_lines (lines_plain h) ?_ rest
  intro line member
  obtain ⟨f, _, rfl⟩ := List.mem_map.mp member
  simp [Field.line]

theorem getLines_head : getLines h.bytes = h.lines.map (· ++ [13]) ++ [[13]] :=
  getLines_lines (lines_plain h) kCRLF

def lineValue (headerName raw : Bytes) : Option Bytes :=
  let line := chomp raw
  match line.findIdx? (· == 58) with
  | none => none
  | some pos =>
      if toLower (line.take pos) = toLower headerName then
        some ((line.drop (pos + 1)).dropWhile (· == 32))
      else none

theorem field_value (headerName : Bytes) (f : Field) :
    lineValue headerName (f.line ++ [13]) =
      if toLower f.name = toLower headerName then some (dropSpaces f.raw) else none := by
  have found := CString.find_byte (fun b member => (f.name_bytes b member).1) f.raw
  simp only [lineValue, chomp_cr, Field.line, found, List.take_left]
  rw [← List.drop_drop, List.drop_left]
  rfl

/- The blank behind the method stays in front of the first colon of a request line. -/
theorem requestLine_value {headerName : Bytes} (no_blank : (32 : UInt8) ∉ toLower headerName) :
    lineValue headerName (h.requestLine ++ [13]) = none := by
  simp only [lineValue, chomp_cr]
  split
  · rfl
  · rename_i pos found
    rw [if_neg]
    intro same
    apply no_blank
    rw [← same]
    have late : h.method.length < pos := by
      have none : h.method.findIdx? (· == 58) = none := by
        rw [List.findIdx?_eq_none_iff]
        intro b member
        simpa using (h.method_bytes b member).1
      rw [RequestHead.requestLine, List.findIdx?_append, none, List.findIdx?_cons] at found
      simp only [Option.none_or, Option.map_eq_some_iff] at found
      obtain ⟨n, behind, rfl⟩ := found
      have apart : ((32 : UInt8) == 58) = false := by decide
      simp only [apart, Bool.false_eq_true, ↓reduceIte, Option.map_eq_some_iff] at behind
      obtain ⟨k, _, rfl⟩ := behind
      omega
    refine List.mem_map.mpr ⟨32, ?_, by decide⟩
    rw [RequestHead.requestLine, List.take_append, List.mem_append]
    right
    have more : 0 < pos - h.method.length := by omega
    cases size : pos - h.method.length with
    | zero => omega
    | succ n => simp

theorem findHeaderValue_head {headerName : Bytes} (no_blank : (32 : UInt8) ∉ toLower headerName) :
    findHeaderValue h.bytes headerName = (h.rawValue headerName).map dropSpaces := by
  have fields : (h.fields.map fun f => f.line ++ [13]).findSome? (lineValue headerName) =
      (h.rawValue headerName).map dropSpaces := by
    unfold RequestHead.rawValue
    induction h.fields with
    | nil => rfl
    | cons f fields ih =>
      rw [List.map_cons, List.findSome?_cons, field_value, ih]
      by_cases same : toLower f.name = toLower headerName
      · simp [same]
      · simp [same]
  have blank : lineValue headerName [13] = none := rfl
  change (getLines h.bytes).findSome? (lineValue headerName) = _
  rw [getLines_head, List.findSome?_append, RequestHead.lines, List.map_cons, List.findSome?_cons,
    requestLine_value h no_blank, List.map_map, ← fields]
  simp only [Function.comp_def, List.findSome?_cons, blank, List.findSome?_nil, Option.or_none]

/-- The decision by the values as findHeaderValue returns them. -/
def RequestHead.written (ssl : OpenSsl) (h : RequestHead) : Option Bytes :=
  respondTo ssl ((h.rawValue keyName).map dropSpaces) ((h.rawValue upgradeName).map dropSpaces)

theorem produced_written (ssl : OpenSsl) {env : Environment} (off : shouldEnforceNonce env = false)
    (now : UInt64) (seen : NonceTable) (p : WebSocketStreamParser) (rest : Bytes) :
    produced (tryConsumeUpgrade ssl env now seen { p with buffer_ := h.bytes ++ rest }) =
      h.written ssl := by
  have key := findHeaderValue_head h (show (32 : UInt8) ∉ toLower keyName by decide)
  have upgrade := findHeaderValue_head h (show (32 : UInt8) ∉ toLower upgradeName by decide)
  simp only [keyName, upgradeName] at key upgrade
  simp only [tryConsumeUpgrade, headEnd_head, List.take_left, checkHead, key, upgrade, off,
    RequestHead.written, keyName, upgradeName]
  cases (h.rawValue (CString.bytes "Sec-WebSocket-Key")).map dropSpaces with
  | none => rfl
  | some secKey =>
    simp only
    cases (h.rawValue (CString.bytes "Upgrade")).map dropSpaces with
    | none =>
      cases secKey <;> rfl
    | some value =>
      cases secKey with
      | nil => rfl
      | cons b secKey =>
        by_cases websocket : toLower value = CString.bytes "websocket"
        · simp [respondTo, websocket, produced]
        · simp [respondTo, websocket, produced]

end

section
variable {raw : Bytes}

theorem trimOws_dropSpaces : trimOws (dropSpaces raw) = trimOws raw := by
  have same : (dropSpaces raw).dropWhile isOws = raw.dropWhile isOws := by
    unfold dropSpaces
    induction raw with
    | nil => rfl
    | cons b raw ih =>
      by_cases blank : b = 32
      · simp only [List.dropWhile_cons, blank, beq_self_eq_true, ↓reduceIte, ih, isOws,
          Bool.true_or]
      · simp only [List.dropWhile_cons, beq_eq_false_iff_ne.mpr blank, Bool.false_eq_true,
          ↓reduceIte]
  rw [trimOws, same, trimOws]

theorem dropWhile_clean {value : Bytes} (clean : ∀ b ∈ value, isOws b = false) :
    value.dropWhile isOws = value := by
  cases value with
  | nil => rfl
  | cons b value => simp [clean b List.mem_cons_self]

theorem trimOws_clean {value : Bytes} (clean : ∀ b ∈ value, isOws b = false) :
    trimOws value = value := by
  have back : ∀ b ∈ value.reverse, isOws b = false := by
    intro b member
    exact clean b (List.mem_reverse.mp member)
  rw [trimOws, dropWhile_clean clean, dropWhile_clean back, List.reverse_reverse]

/- Only a value written plainly can be websocket to the parser. -/
theorem websocket_plain : toLower (dropSpaces raw) = CString.bytes "websocket" ↔
    Plain raw ∧ toLower (trimOws raw) = CString.bytes "websocket" := by
  constructor
  · intro websocket
    have clean : ∀ b ∈ dropSpaces raw, isOws b = false := by
      intro b member
      have lower : tolower b ∈ CString.bytes "websocket" := by
        rw [← websocket]
        exact List.mem_map_of_mem member
      by_contra ows
      have cases : b = 32 ∨ b = 9 := by
        simp only [isOws, Bool.not_eq_false, Bool.or_eq_true, beq_iff_eq] at ows
        exact ows
      rcases cases with rfl | rfl <;> exact absurd lower (by decide)
    have plain : Plain raw := by
      rw [Plain, ← trimOws_dropSpaces, trimOws_clean clean]
    exact ⟨plain, plain ▸ websocket⟩
  · rintro ⟨plain, websocket⟩
    rw [plain]
    exact websocket

theorem blank_plain (blank : dropSpaces raw = []) : Plain raw := by
  rw [Plain, ← trimOws_dropSpaces, blank]
  rfl

end

/-- The way the two values are written does not matter: one is missing, the upgrade is not to
    websocket, both are plain, or the upgrade is not plain and the key is blank. -/
def WrittenPlainly (h : RequestHead) : Prop :=
  ∀ key ∈ h.rawValue keyName, ∀ upgrade ∈ h.rawValue upgradeName,
    toLower (trimOws upgrade) = CString.bytes "websocket" →
      (Plain upgrade ∧ Plain key) ∨ (¬ Plain upgrade ∧ trimOws key = [])

theorem acceptResponse_injective : Function.Injective acceptResponse := by
  intro a b same
  unfold acceptResponse at same
  exact List.append_cancel_left (List.append_cancel_right same)

theorem written_exact (h : RequestHead) :
    (∀ ssl, h.written ssl = h.decision ssl) ↔ WrittenPlainly h := by
  have inhabited : Nonempty OpenSsl := ⟨⟨id, id⟩⟩
  unfold WrittenPlainly RequestHead.written RequestHead.decision
  cases h.rawValue keyName with
  | none => simp [respondTo]
  | some key =>
    cases h.rawValue upgradeName with
    | none => simp [respondTo]
    | some upgrade =>
      simp only [Option.map_some, respondTo, Option.mem_def, Option.some.injEq, forall_eq']
      by_cases websocket : toLower (trimOws upgrade) = CString.bytes "websocket"
      swap
      · have refused : ¬ toLower (dropSpaces upgrade) = CString.bytes "websocket" :=
          fun read => websocket (websocket_plain.mp read).2
        simp [websocket, refused]
      by_cases plain : Plain upgrade
      swap
      · have refused : ¬ toLower (dropSpaces upgrade) = CString.bytes "websocket" :=
          fun read => plain (websocket_plain.mp read).1
        simp [websocket, refused, plain]
      have read := websocket_plain.mpr ⟨plain, websocket⟩
      by_cases plainKey : Plain key
      · have same : dropSpaces key = trimOws key := plainKey
        simp [websocket, read, plain, plainKey, same]
      · have filled : dropSpaces key ≠ [] := fun empty => plainKey (blank_plain empty)
        simp only [websocket, read, plain, plainKey, filled, ne_eq, not_false_eq_true, and_self,
          and_true, and_false, not_true_eq_false, false_and, or_false, ↓reduceIte, forall_const,
          iff_false]
        intro agree
        have same := agree ⟨id, id⟩
        by_cases blank : trimOws key = []
        · simp [blank] at same
        · rw [if_pos blank] at same
          have accepts := acceptResponse_injective (Option.some.inj same)
          exact plainKey (List.append_cancel_right accepts)

/-- Fields that are the same but for their order and the case of their names. -/
def SameFields (h h' : RequestHead) : Prop :=
  (h.fields.map fun f => (toLower f.name, f.raw)).Perm
    (h'.fields.map fun f => (toLower f.name, f.raw))

theorem rawValue_some (h : RequestHead) (name raw : Bytes) : h.rawValue name = some raw ↔
    (toLower name, raw) ∈ h.fields.map fun f => (toLower f.name, f.raw) := by
  have distinct := h.distinct
  unfold RequestHead.rawValue
  revert distinct
  induction h.fields with
  | nil => simp
  | cons f fields ih =>
    intro distinct
    rw [List.map_cons, List.nodup_cons] at distinct
    have tail := ih distinct.2
    by_cases same : toLower f.name = toLower name
    · have absent : (toLower name, raw) ∉ fields.map fun f => (toLower f.name, f.raw) := by
        intro member
        apply distinct.1
        obtain ⟨g, inside, pair⟩ := List.mem_map.mp member
        exact List.mem_map.mpr ⟨g, inside, (congrArg Prod.fst pair).trans same.symm⟩
      rw [List.find?_cons_of_pos (by simpa using same), List.map_cons, List.mem_cons]
      simp [absent, same, eq_comm]
    · rw [List.find?_cons_of_neg (by simpa using same), List.map_cons, List.mem_cons]
      have other : (toLower name, raw) ≠ (toLower f.name, f.raw) := by
        intro pair
        exact same (congrArg Prod.fst pair).symm
      simp only [other, false_or]
      exact tail

theorem rawValue_same {h h' : RequestHead} (same : SameFields h h') (name : Bytes) :
    h.rawValue name = h'.rawValue name := by
  apply Option.ext
  intro raw
  rw [rawValue_some, rawValue_some]
  exact same.mem_iff

/-- With the nonce check off a request is decided by the meaning of its fields exactly when the way
    its two values are written does not matter; the order of the fields and the case of their
    names never do. -/
theorem meaning_decides_exact {env : Environment} (off : shouldEnforceNonce env = false)
    (h : RequestHead) :
    ((∀ ssl, FollowsMeaning ssl env h) ↔ WrittenPlainly h) ∧
      ∀ (ssl : OpenSsl) (h' : RequestHead), SameFields h h' →
        ∀ (now now' : UInt64) (seen seen' : NonceTable) (p p' : WebSocketStreamParser)
          (rest rest' : Bytes),
          produced (tryConsumeUpgrade ssl env now seen { p with buffer_ := h.bytes ++ rest }) =
            produced
              (tryConsumeUpgrade ssl env now' seen' { p' with buffer_ := h'.bytes ++ rest' }) := by
  constructor
  · rw [← written_exact]
    simp only [FollowsMeaning, produced_written h _ off]
    constructor
    · intro follows ssl
      exact follows ssl 0 [] (construct true) []
    · intro same ssl _ _ _ _
      exact same ssl
  · intro ssl h' same now now' seen seen' p p' rest rest'
    rw [produced_written h ssl off, produced_written h' ssl off, RequestHead.written,
      RequestHead.written, rawValue_same same, rawValue_same same]

/- Evaluated faster than the statement it decides. -/
theorem plain_bytes {raw : Bytes} (check : (raw.all fun b => b != 13 && b != 10) = true) :
    ∀ b ∈ raw, b ≠ 13 ∧ b ≠ 10 := by
  intro b member
  have byte := List.all_eq_true.mp check b member
  simpa using byte

def keyField : Field where
  name := keyName
  raw := CString.bytes " x3JJHMbDL1EzLkh9GBhXDw=="
  name_bytes := by decide +kernel
  raw_bytes := plain_bytes (by decide +kernel)

def upgradeField (raw : Bytes) (raw_bytes : ∀ b ∈ raw, b ≠ 13 ∧ b ≠ 10) : Field where
  name := upgradeName
  raw
  name_bytes := by decide +kernel
  raw_bytes

def requestWith (raw : Bytes) (raw_bytes : ∀ b ∈ raw, b ≠ 13 ∧ b ≠ 10) : RequestHead where
  method := CString.bytes "GET"
  target := CString.bytes "/ HTTP/1.1"
  fields := [upgradeField raw raw_bytes, keyField]
  method_bytes := by decide +kernel
  target_bytes := plain_bytes (by decide +kernel)
  distinct := by
    change ([upgradeName, keyName].map toLower).Nodup
    decide +kernel

/- The usual spelling is decided by its meaning. -/
theorem usual_request_follows :
    FollowsMeaning ⟨id, id⟩ ⟨none, none⟩
      (requestWith (CString.bytes " websocket") (plain_bytes (by decide +kernel))) := by
  refine (meaning_decides_exact (by decide) _).1.mpr ?_ ⟨id, id⟩
  intro key isKey upgrade isUpgrade _
  have key_raw := Option.some.inj isKey
  have upgrade_raw := Option.some.inj isUpgrade
  left
  rw [← key_raw, ← upgrade_raw]
  unfold Plain
  decide +kernel

def blankBehind : RequestHead :=
  requestWith (CString.bytes " websocket ") (plain_bytes (by decide +kernel))

theorem trailing_blank_refused :
    ¬ ∀ (ssl : OpenSsl) (env : Environment), shouldEnforceNonce env = false →
        ∀ h : RequestHead, FollowsMeaning ssl env h := by
  intro claimed
  have off : shouldEnforceNonce ⟨none, none⟩ = false := by decide
  have follows := claimed ⟨id, id⟩ ⟨none, none⟩ off blankBehind 0 [] (construct true) []
  rw [produced_written blankBehind _ off] at follows
  exact absurd follows (by decide +kernel)

end Upgrade
