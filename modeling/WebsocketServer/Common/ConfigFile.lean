import WebsocketServer.Library.CText

/- config_file: the key = value lines that preset the server's options, and what the options are
   read from. -/
namespace ConfigFile
open CString CText

/-- std::unordered_map<std::string, std::string>. -/
abbrev Map := AList fun _ : Bytes => Bytes

def toLowerAscii (s : Bytes) : Bytes := s.map tolower

def trim (s : Bytes) : Bytes := strip isspace s

def parseBool (v : Bytes) : Option Bool :=
  let t := toLowerAscii v
  if t = bytes "1" ∨ t = bytes "true" ∨ t = bytes "yes" ∨ t = bytes "on" then some true
  else if t = bytes "0" ∨ t = bytes "false" ∨ t = bytes "no" ∨ t = bytes "off" then some false
  else none

inductive Reading where
  | skipped
  | assigned (key val : Bytes)
  | missingEquals
  | emptyKey
  deriving DecidableEq, Repr

def unquote (val : Bytes) : Bytes :=
  if val ≠ [] ∧ val.head? = some 34 ∧ val.getLast? = some 34 ∧ val.length ≥ 2 then
    (val.drop 1).take (val.length - 2)
  else val

def readTrimmed (line : Bytes) : Reading :=
  if line = [] ∨ line.head? = some 35 then .skipped
  else match line.findIdx? (· == 61) with
    | none => .missingEquals
    | some eq =>
        let key := trim (line.take eq)
        let val := unquote (trim (line.drop (eq + 1)))
        if key = [] then .emptyKey else .assigned (toLowerAscii key) val

def readLine (line : Bytes) : Reading :=
  let line := if line.getLast? = some 13 then line.dropLast else line
  readTrimmed (trim line)

/-- What load returns and leaves behind its two pointers; none where err is not written. -/
structure Loaded where
  ok : Bool
  out : Map
  err : Option Bytes
  deriving DecidableEq

def lineError (path : Bytes) (lineNo : Nat) (what : String) : Option Bytes :=
  some (path ++ bytes ":" ++ decimal lineNo ++ bytes what)

/-- The loop of load behind lineNo lines. A line at fault ends it, with the pairs before it kept. -/
def loadLines (path : Bytes) : Nat → Map → List Bytes → Loaded
  | _, out, [] => ⟨true, out, none⟩
  | lineNo, out, line :: rest =>
      match readLine line with
      | .skipped => loadLines path (lineNo + 1) out rest
      | .assigned key val => loadLines path (lineNo + 1) (out.insert key val) rest
      | .missingEquals => ⟨false, out, lineError path (lineNo + 1) ": missing '='"⟩
      | .emptyKey => ⟨false, out, lineError path (lineNo + 1) ": empty key"⟩

/-- none stands for a file that cannot be opened. -/
def load (path : Bytes) (file : Option Bytes) : Loaded :=
  match file with
  | none => ⟨false, ∅, some (bytes "cannot open file")⟩
  | some text => loadLines path 0 ∅ (getLines text)

def getString (m : Map) (key defaultVal : Bytes) : Bytes :=
  (m.lookup (toLowerAscii key)).getD defaultVal

/-- strtol, unless the value is missing or empty or begins no number. -/
def getLong (m : Map) (key : Bytes) (defaultVal : Int) : Int :=
  let s := getString m key []
  if s = [] then defaultVal else (strtol s).getD defaultVal

def getInt (m : Map) (key : Bytes) (defaultVal : Int) : Int :=
  let s := getString m key []
  if s = [] then defaultVal
  else match strtol s with
    | none => defaultVal
    | some v => signedCast 32 v

def getBool (m : Map) (key : Bytes) (defaultVal : Bool) : Bool :=
  let s := getString m key []
  if s = [] then defaultVal else (parseBool s).getD defaultVal

def Blank (s : Bytes) : Prop := ∀ b ∈ s, isspace b = true ∧ b ≠ 10

structure Assignment where
  before : Bytes
  key : Bytes
  middle : Bytes
  after : Bytes
  value : Bytes
  behind : Bytes
  key_some : key ≠ []
  key_bytes : ∀ b ∈ key, b ≠ 61 ∧ b ≠ 10
  key_first : ∀ b, key.head? = some b → isspace b = false ∧ b ≠ 35
  key_last : ∀ b, key.getLast? = some b → isspace b = false
  value_bytes : ∀ b ∈ value, b ≠ 10
  before_blank : Blank before
  middle_blank : Blank middle
  after_blank : Blank after
  behind_blank : Blank behind

def quoted (value : Bytes) : Bytes := 34 :: (value ++ [34])

def Assignment.core (a : Assignment) : Bytes :=
  (a.key ++ a.middle) ++ 61 :: (a.after ++ quoted a.value)

inductive ConfigLine where
  | assignment (a : Assignment)
  | blank (text : Bytes) (blank : Blank text)
  | comment (before text : Bytes) (before_blank : Blank before) (text_bytes : ∀ b ∈ text, b ≠ 10)

def ConfigLine.text : ConfigLine → Bytes
  | .assignment a => a.before ++ (a.core ++ a.behind)
  | .blank text _ => text
  | .comment before text _ _ => before ++ 35 :: text

def ConfigLine.assigns : ConfigLine → Option Assignment
  | .assignment a => some a
  | _ => none

inductive LineEnd where
  | lf
  | crlf

def LineEnd.bytes : LineEnd → Bytes
  | .lf => [10]
  | .crlf => [13, 10]

/-- A configuration file; its last line may lack an end. -/
structure ConfigText where
  lines : List (ConfigLine × LineEnd)
  last : Option ConfigLine

def ConfigText.bytes (f : ConfigText) : Bytes :=
  f.lines.flatMap (fun l => l.1.text ++ l.2.bytes) ++ (f.last.map ConfigLine.text).getD []

def ConfigText.assignments (f : ConfigText) : List Assignment :=
  (f.lines.map Prod.fst ++ f.last.toList).filterMap ConfigLine.assigns

/-- The value of the last line that assigns to a key, whatever the case it is written in. -/
def ConfigText.value (f : ConfigText) (k : Bytes) : Option Bytes :=
  (f.assignments.reverse.find? fun a => toLowerAscii a.key = k).map Assignment.value

def WhiteLine (line : Bytes) : Prop := ∀ b ∈ line, isspace b = true

def LedBy (c : UInt8) (line : Bytes) : Prop :=
  ∃ before rest, line = before ++ c :: rest ∧ ∀ b ∈ before, isspace b = true

/-- Neither blank nor a comment, and without '=' or with nothing before the first one. -/
structure Faulty (line : Bytes) : Prop where
  written : ¬ WhiteLine line
  no_comment : ¬ LedBy 35 line
  no_key : (∀ b ∈ line, b ≠ 61) ∨ LedBy 61 line

def Stops (r : Reading) : Prop := r = .missingEquals ∨ r = .emptyKey

def assigned : Reading → Option (Bytes × Bytes)
  | .assigned key val => some (key, val)
  | _ => none

def insertPair (m : Map) (pair : Bytes × Bytes) : Map := m.insert pair.1 pair.2

section
variable (path : Bytes)

theorem loadLines_ok (lineNo : Nat) (out : Map) (lines : List Bytes) :
    (loadLines path lineNo out lines).ok = false ↔ ∃ line ∈ lines, Stops (readLine line) := by
  induction lines generalizing lineNo out with
  | nil => simp [loadLines]
  | cons line rest ih =>
    simp only [loadLines, List.exists_mem_cons_iff]
    cases reading : readLine line with
    | skipped => simp [ih, Stops]
    | assigned key val => simp [ih, Stops]
    | missingEquals => simp [Stops]
    | emptyKey => simp [Stops]

theorem loadLines_out (lineNo : Nat) (out : Map) {lines : List Bytes}
    (fine : ∀ line ∈ lines, ¬ Stops (readLine line)) :
    loadLines path lineNo out lines =
      ⟨true, (lines.filterMap fun line => assigned (readLine line)).foldl insertPair out,
        none⟩ := by
  induction lines generalizing lineNo out with
  | nil => rfl
  | cons line rest ih =>
    rw [List.forall_mem_cons] at fine
    obtain ⟨here, later⟩ := fine
    rw [loadLines, List.filterMap_cons]
    cases reading : readLine line with
    | skipped => exact ih (lineNo + 1) out later
    | assigned key val => exact ih (lineNo + 1) _ later
    | missingEquals => exact absurd (Or.inl reading) here
    | emptyKey => exact absurd (Or.inr reading) here

end

/- The last of the pairs with a key decides what is found under it. -/
theorem lookup_foldl (pairs : List (Bytes × Bytes)) (m : Map) (k : Bytes) :
    (pairs.foldl insertPair m).lookup k =
      ((pairs.reverse.find? fun pair => pair.1 = k).map Prod.snd).or (m.lookup k) := by
  induction pairs generalizing m with
  | nil => rfl
  | cons pair pairs ih =>
    rw [List.foldl_cons, ih, List.reverse_cons, List.find?_append]
    cases later : pairs.reverse.find? fun pair => pair.1 = k with
    | some found => rfl
    | none =>
      by_cases same : pair.1 = k
      · simp [same, insertPair]
      · simp [same, insertPair, AList.lookup_insert_ne (Ne.symm same)]

section
variable {line : Bytes}

/- The carriage return before the line feed is white space as well. -/
theorem readLine_trim : readLine line = readTrimmed (trim line) := by
  unfold readLine
  dsimp only
  split
  · rename_i cr
    obtain ⟨front, rfl⟩ := List.getLast?_eq_some_iff.mp cr
    rw [List.dropLast_concat, trim, trim, strip_absorbs]
    simp [isspace]
  · rfl

theorem trim_blank_iff : trim line = [] ↔ WhiteLine line := strip_nil_iff isspace

theorem trim_led {c : UInt8} (kept : isspace c = false) :
    (trim line).head? = some c ↔ LedBy c line := strip_led isspace kept

theorem mem_trim {c : UInt8} (kept : isspace c = false) : c ∈ trim line ↔ c ∈ line := by
  obtain ⟨left, right, split, before, behind⟩ := strip_split isspace line
  have no_left : c ∉ left := by
    intro member
    simp [before c member] at kept
  have no_right : c ∉ right := by
    intro member
    simp [behind c member] at kept
  have whole : c ∈ line ↔ c ∈ left ++ (strip isspace line ++ right) := by rw [← split]
  rw [whole, trim]
  simp [no_left, no_right]

theorem trim_head {c : UInt8} (first : (trim line).head? = some c) : isspace c = false := by
  have kept := List.head?_dropWhile_not isspace line
  rw [trim, head_strip] at first
  rw [first] at kept
  simpa using kept

/- Behind the test for comments: the key is empty only if the line begins with '='. -/
theorem readTrimmed_stops (some_byte : trim line ≠ []) (no_comment : (trim line).head? ≠ some 35) :
    Stops (readTrimmed (trim line)) ↔ (∀ b ∈ trim line, b ≠ 61) ∨ (trim line).head? = some 61 := by
  obtain ⟨c, rest, shape⟩ := List.exists_cons_of_ne_nil some_byte
  have kept : isspace c = false := trim_head (by rw [shape]; rfl)
  unfold readTrimmed
  rw [if_neg (by simp [some_byte, no_comment])]
  cases found : (trim line).findIdx? (· == 61) with
  | none =>
    have absent := List.findIdx?_eq_none_iff.mp found
    exact iff_of_true (Or.inl rfl) (Or.inl fun b member => by simpa using absent b member)
  | some eq =>
    obtain ⟨inside, here, _⟩ := List.findIdx?_eq_some_iff_getElem.mp found
    have present : ¬ ∀ b ∈ trim line, b ≠ 61 := by
      intro absent
      exact absent _ (List.getElem_mem inside) (by simpa using here)
    have empty_key : trim ((trim line).take eq) = [] ↔ (trim line).head? = some 61 := by
      rw [trim_blank_iff, shape]
      cases eq with
      | zero =>
        simp only [shape, List.getElem_cons_zero, beq_iff_eq] at here
        simp [WhiteLine, here]
      | succ eq =>
        have other : c ≠ 61 := by
          rename_i before
          have first := before 0 (by omega)
          simpa [shape] using first
        have white : ¬ WhiteLine ((c :: rest).take (eq + 1)) := by
          intro all
          simp [all c (by simp)] at kept
        exact iff_of_false white (by simpa using other)
    dsimp only
    rw [← empty_key]
    split
    · rename_i empty
      exact iff_of_true (Or.inr rfl) (Or.inr empty)
    · rename_i full
      simp [Stops, full, present]

theorem stops_iff : Stops (readLine line) ↔ Faulty line := by
  have hash : isspace 35 = false := by decide
  have equals : isspace 61 = false := by decide
  have absent : (∀ b ∈ trim line, b ≠ 61) ↔ ∀ b ∈ line, b ≠ 61 := by
    constructor
    · rintro none b member rfl
      exact none 61 ((mem_trim equals).mpr member) rfl
    · rintro none b member rfl
      exact none 61 ((mem_trim equals).mp member) rfl
  rw [readLine_trim]
  by_cases white : trim line = []
  · have skips : readTrimmed (trim line) = .skipped := if_pos (Or.inl white)
    rw [skips]
    exact iff_of_false (by simp [Stops]) fun faulty => faulty.written (trim_blank_iff.mp white)
  by_cases comment : (trim line).head? = some 35
  · have skips : readTrimmed (trim line) = .skipped := if_pos (Or.inr comment)
    rw [skips]
    exact iff_of_false (by simp [Stops]) fun faulty =>
      faulty.no_comment ((trim_led hash).mp comment)
  · rw [readTrimmed_stops white comment, absent, trim_led equals]
    constructor
    · exact fun no_key => ⟨white ∘ trim_blank_iff.mpr, comment ∘ (trim_led hash).mpr, no_key⟩
    · exact fun faulty => faulty.no_key

end

section
variable (a : Assignment)

theorem blank_white {s : Bytes} (blank : Blank s) : ∀ b ∈ s, isspace b = true :=
  fun b member => (blank b member).1

theorem blank_lacks {s : Bytes} (blank : Blank s) {c : UInt8} (kept : isspace c = false) :
    ∀ b ∈ s, b ≠ c := by
  rintro b member rfl
  simp [blank_white blank b member] at kept

theorem quoted_last (value : Bytes) : (quoted value).getLast? = some 34 := by
  rw [quoted, ← List.cons_append, List.getLast?_concat]

theorem unquote_quoted (value : Bytes) : unquote (quoted value) = value := by
  have two : quoted value ≠ [] ∧ (quoted value).head? = some 34 ∧
      (quoted value).getLast? = some 34 ∧ (quoted value).length ≥ 2 :=
    ⟨by simp [quoted], rfl, quoted_last value, by simp [quoted]⟩
  rw [unquote, if_pos two]
  simp [quoted]

theorem trim_core : trim (a.before ++ (a.core ++ a.behind)) = a.core := by
  apply strip_padded (blank_white a.before_blank) (blank_white a.behind_blank)
  · intro b first
    obtain ⟨c, rest, key⟩ := List.exists_cons_of_ne_nil a.key_some
    rw [Assignment.core, key] at first
    exact (a.key_first b (by rw [key]; exact first)).1
  · intro b last
    have shape : a.core = (a.key ++ a.middle ++ 61 :: (a.after ++ 34 :: a.value)) ++ [34] := by
      simp [Assignment.core, quoted]
    rw [shape, List.getLast?_concat] at last
    rw [← Option.some.inj last]
    rfl

theorem readTrimmed_core :
    readTrimmed a.core = .assigned (toLowerAscii a.key) a.value := by
  obtain ⟨c, rest, key⟩ := List.exists_cons_of_ne_nil a.key_some
  have first := a.key_first c (by rw [key]; rfl)
  have absent : ∀ b ∈ a.key ++ a.middle, b ≠ 61 := by
    intro b member
    rcases List.mem_append.mp member with inside | around
    · exact (a.key_bytes b inside).1
    · exact blank_lacks a.middle_blank rfl b around
  have written : ¬ (a.core = [] ∨ a.core.head? = some 35) := by
    simp [Assignment.core, key, first.2]
  have name : trim ([] ++ (a.key ++ a.middle)) = a.key :=
    strip_padded (by simp) (blank_white a.middle_blank) (fun b start => (a.key_first b start).1)
      a.key_last
  rw [List.nil_append] at name
  have text : trim (a.after ++ quoted a.value) = quoted a.value := by
    have ends : ∀ b, (quoted a.value).getLast? = some b → isspace b = false := by
      intro b last
      rw [quoted_last] at last
      rw [← Option.some.inj last]
      rfl
    have starts : ∀ b, (quoted a.value).head? = some b → isspace b = false := by
      intro b start
      rw [← Option.some.inj start]
      rfl
    have both : trim (a.after ++ (quoted a.value ++ [])) = quoted a.value :=
      strip_padded (blank_white a.after_blank) (by simp) starts ends
    rwa [List.append_nil] at both
  unfold readTrimmed
  rw [if_neg written, Assignment.core, find_byte absent]
  dsimp only
  rw [List.take_left, ← List.drop_drop, List.drop_left, List.drop_one, List.tail_cons, name, text,
    unquote_quoted, if_neg a.key_some]

end

def ConfigLine.reading : ConfigLine → Reading
  | .assignment a => .assigned (toLowerAscii a.key) a.value
  | _ => .skipped

def Assignment.pair (a : Assignment) : Bytes × Bytes := (toLowerAscii a.key, a.value)

theorem line_plain (l : ConfigLine) : ∀ b ∈ l.text, b ≠ 10 := by
  cases l with
  | assignment a =>
    simp only [ConfigLine.text, Assignment.core, quoted, List.mem_append, List.mem_cons,
      List.not_mem_nil, or_false]
    rintro b (around | ((key | around) | rfl | around | rfl | value | rfl) | around)
    · exact (a.before_blank b around).2
    · exact (a.key_bytes b key).2
    · exact (a.middle_blank b around).2
    · decide
    · exact (a.after_blank b around).2
    · decide
    · exact a.value_bytes b value
    · decide
    · exact (a.behind_blank b around).2
  | blank text blank => exact fun b member => (blank b member).2
  | comment before text before_blank text_bytes =>
    intro b member
    rcases List.mem_append.mp member with front | behind
    · exact (before_blank b front).2
    · rcases List.mem_cons.mp behind with rfl | inside
      · decide
      · exact text_bytes b inside

theorem readLine_text (l : ConfigLine) {right : Bytes} (behind : ∀ b ∈ right, isspace b = true) :
    readLine (l.text ++ right) = l.reading := by
  have same : trim (l.text ++ right) = trim l.text := strip_absorbs behind l.text
  rw [readLine_trim, same]
  cases l with
  | assignment a =>
    rw [ConfigLine.text, trim_core]
    exact readTrimmed_core a
  | blank text blank => exact if_pos (Or.inl (trim_blank_iff.mpr (blank_white blank)))
  | comment before text before_blank text_bytes =>
    exact if_pos (Or.inr ((trim_led rfl).mpr ⟨before, text, rfl, blank_white before_blank⟩))

theorem assigned_reading (l : ConfigLine) :
    ¬ Stops l.reading ∧ assigned l.reading = l.assigns.map Assignment.pair := by
  cases l <;> exact ⟨by simp [Stops, ConfigLine.reading], rfl⟩

/- The last line counts as one unless it is empty. -/
theorem getLines_last {text : Bytes} (plain : ∀ b ∈ text, b ≠ 10) :
    getLines text = if text = [] then [] else [text] := by
  induction text with
  | nil => rfl
  | cons b rest ih =>
    have first := plain b List.mem_cons_self
    have tail := ih fun c member => plain c (List.mem_cons_of_mem _ member)
    rw [getLines, if_neg first, tail, if_neg (List.cons_ne_nil b rest)]
    split
    · rename_i lines
      split at lines
      · rename_i empty
        rw [empty]
      · contradiction
    · rename_i line more lines
      split at lines
      · contradiction
      · obtain ⟨rfl, rfl⟩ := List.cons.inj lines
        rfl

section
variable (f : ConfigText)

def LineEnd.kept : LineEnd → Bytes
  | .lf => []
  | .crlf => [13]

theorem kept_white (e : LineEnd) : ∀ b ∈ e.kept, isspace b = true := by
  cases e <;> simp [LineEnd.kept, isspace]

theorem getLines_ended (lines : List (ConfigLine × LineEnd)) (rest : Bytes) :
    getLines (lines.flatMap (fun l => l.1.text ++ l.2.bytes) ++ rest) =
      lines.map (fun l => l.1.text ++ l.2.kept) ++ getLines rest := by
  induction lines with
  | nil => rfl
  | cons l lines ih =>
    have plain : ∀ b ∈ l.1.text ++ l.2.kept, b ≠ 10 := by
      intro b member
      rcases List.mem_append.mp member with inside | cr
      · exact line_plain l.1 b inside
      · rintro rfl
        cases e : l.2 <;> simp [e, LineEnd.kept] at cr
    have ends : l.2.bytes = l.2.kept ++ [10] := by cases l.2 <;> rfl
    have shape : (l :: lines).flatMap (fun l => l.1.text ++ l.2.bytes) ++ rest =
        (l.1.text ++ l.2.kept) ++
          10 :: (lines.flatMap (fun l => l.1.text ++ l.2.bytes) ++ rest) := by
      simp [ends]
    rw [shape, getLines_line plain, ih]
    rfl

theorem getLines_text {line : Bytes} (member : line ∈ getLines f.bytes) :
    ∃ l : ConfigLine, readLine line = l.reading := by
  rw [ConfigText.bytes, getLines_ended, List.mem_append] at member
  rcases member with ended | rest
  · obtain ⟨l, _, rfl⟩ := List.mem_map.mp ended
    exact ⟨l.1, readLine_text l.1 (kept_white l.2)⟩
  · cases last : f.last with
    | none =>
      rw [last] at rest
      simp [getLines] at rest
    | some l =>
      have whole : readLine (l.text ++ []) = l.reading := readLine_text l (by simp)
      rw [List.append_nil] at whole
      rw [last, Option.map_some, Option.getD_some, getLines_last (line_plain l)] at rest
      split at rest
      · simp at rest
      · rw [List.mem_singleton.mp rest]
        exact ⟨l, whole⟩

theorem readings_text :
    (getLines f.bytes).filterMap (fun line => assigned (readLine line)) =
      f.assignments.map Assignment.pair := by
  have ended (l : ConfigLine × LineEnd) :
      assigned (readLine (l.1.text ++ l.2.kept)) = l.1.assigns.map Assignment.pair := by
    rw [readLine_text l.1 (kept_white l.2)]
    exact (assigned_reading l.1).2
  have rest : (getLines ((f.last.map ConfigLine.text).getD [])).filterMap
        (fun line => assigned (readLine line)) =
      (f.last.toList.filterMap ConfigLine.assigns).map Assignment.pair := by
    cases last : f.last with
    | none => rfl
    | some l =>
      have whole : readLine (l.text ++ []) = l.reading := readLine_text l (by simp)
      have pair := (assigned_reading l).2
      rw [← whole, List.append_nil] at pair
      rw [Option.map_some, Option.getD_some, getLines_last (line_plain l)]
      split
      · -- an empty last line assigns nothing
        rename_i empty
        rw [empty] at pair
        have nothing : l.assigns.map Assignment.pair = none := pair.symm
        rw [Option.map_eq_none_iff] at nothing
        simp [nothing]
      · cases assigns : l.assigns <;> simp [assigns, pair]
  have lines : f.lines.filterMap
        ((fun line => assigned (readLine line)) ∘ fun l => l.1.text ++ l.2.kept) =
      (f.lines.filterMap (ConfigLine.assigns ∘ Prod.fst)).map Assignment.pair := by
    rw [List.map_filterMap]
    congr 1
    funext l
    exact ended l
  rw [ConfigText.bytes, getLines_ended, List.filterMap_append, rest, ConfigText.assignments,
    List.filterMap_append, List.map_append, List.filterMap_map, List.filterMap_map, lines]

theorem load_text (path : Bytes) :
    load path (some f.bytes) =
      ⟨true, (f.assignments.map Assignment.pair).foldl insertPair ∅, none⟩ := by
  have fine : ∀ line ∈ getLines f.bytes, ¬ Stops (readLine line) := by
    intro line member
    obtain ⟨l, reading⟩ := getLines_text f member
    rw [reading]
    exact (assigned_reading l).1
  rw [load, loadLines_out path 0 ∅ fine, readings_text]

theorem lookup_text (path k : Bytes) : (load path (some f.bytes)).out.lookup k = f.value k := by
  rw [load_text, lookup_foldl, ← List.map_reverse, List.find?_map, ConfigText.value]
  simp only [AList.lookup_empty, Option.or_none, Option.map_map]
  rfl

end

/-- What was written is loaded, whatever the white space, the line ends, the blank lines and the
    comments; and no file with a line at fault is loaded. -/
theorem load_inverts (path : Bytes) :
    (∀ f : ConfigText, (load path (some f.bytes)).ok = true ∧
      ∀ k, (load path (some f.bytes)).out.lookup k = f.value k) ∧
      ∀ file : Bytes, (load path (some file)).ok = false ↔ ∃ line ∈ getLines file, Faulty line := by
  refine ⟨?_, ?_⟩
  · intro f
    exact ⟨by rw [load_text], lookup_text f path⟩
  · intro file
    rw [load, loadLines_ok]
    simp only [stops_iff]

end ConfigFile
