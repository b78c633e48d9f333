import WebsocketServer.Library.PathName
import WebsocketServer.Server.HttpResponder

/- Which file a GET opens. -/
namespace HttpResponder
open CString PathName Upgrade

/-- The response depends on the file of this name. -/
def Opens (http_root url_path name : Bytes) : Prop :=
  ∃ files files' : Bytes → FileRead, (∀ other ≠ name, files other = files' other) ∧
    buildHttpStaticResponse files http_root url_path ≠
      buildHttpStaticResponse files' http_root url_path

def cString (s : Bytes) : Bytes := s.takeWhile (· != 0)

/-- The root joined with a relative path that has no ".." segment. -/
def Joined (http_root name : Bytes) : Prop :=
  ∃ rel, name = join 47 http_root rel ∧ ¬ Absolute 47 rel ∧ ¬ Climbs 47 46 rel

/-- The name is made from the root, and what it denotes is inside it. -/
def Confined (http_root name : Bytes) : Prop :=
  Joined http_root name ∧ Inside 47 46 (cString http_root) name

/-- Paths that are answered without a look at the disk. -/
def Unopened (url_path : Bytes) : Prop :=
  hasDotDot url_path = true ∨ url_path = bytes "/favicon.ico"

/-- The path a request asks for, and the same without its leading separator. -/
def asked (url_path : Bytes) : Bytes :=
  if url_path = [] ∨ url_path = bytes "/" then bytes "/index.html" else url_path

def stripped (p : Bytes) : Bytes := if p.head? = some 47 then p.tail else p

theorem fileName_join (http_root p : Bytes) :
    fileName http_root p = cString (join 47 http_root (stripped p)) := by
  by_cases plain : http_root = [] ∨ http_root.getLast? = some 47
  · have kept : ¬ (http_root ≠ [] ∧ http_root.getLast? ≠ some 47) := by
      rintro ⟨filled, opened⟩
      exact plain.elim filled opened
    simp only [fileName, join, stripped, cString, if_pos plain, if_neg kept]
  · have added : http_root ≠ [] ∧ http_root.getLast? ≠ some 47 := not_or.mp plain
    simp only [fileName, join, stripped, cString, if_neg plain, if_pos added, List.append_assoc,
      List.cons_append, List.nil_append]

theorem asked_unopened (url_path : Bytes) :
    (hasDotDot (asked url_path) = true ∨ asked url_path = bytes "/favicon.ico") ↔
      Unopened url_path := by
  unfold asked
  split
  · rename_i index
    have neither : ¬ (hasDotDot (bytes "/index.html") = true ∨
        bytes "/index.html" = bytes "/favicon.ico") := by decide +kernel
    refine iff_of_false neither ?_
    rcases index with rfl | rfl
    · unfold Unopened
      decide +kernel
    · unfold Unopened
      decide +kernel
  · exact Iff.rfl

theorem static_unopened {url_path : Bytes} (unopened : Unopened url_path)
    (files files' : Bytes → FileRead) (http_root : Bytes) :
    buildHttpStaticResponse files http_root url_path =
      buildHttpStaticResponse files' http_root url_path := by
  rw [← asked_unopened] at unopened
  unfold asked at unopened
  rcases unopened with dots | icon
  · simp only [buildHttpStaticResponse, if_pos dots]
  · simp only [buildHttpStaticResponse, if_pos icon]

theorem static_opened {url_path : Bytes} (opened : ¬ Unopened url_path)
    (files : Bytes → FileRead) (http_root : Bytes) :
    buildHttpStaticResponse files http_root url_path =
      (files (fileName http_root (asked url_path))).response := by
  rw [← asked_unopened, not_or] at opened
  obtain ⟨dots, icon⟩ := opened
  unfold asked at dots icon
  simp only [buildHttpStaticResponse, if_neg dots, if_neg icon, asked]

/- At most one file is opened: the one of the joined name. -/
theorem opens_iff {http_root url_path name : Bytes} :
    Opens http_root url_path name ↔
      ¬ Unopened url_path ∧ name = fileName http_root (asked url_path) := by
  constructor
  · rintro ⟨files, files', elsewhere, differ⟩
    have opened : ¬ Unopened url_path :=
      fun unopened => differ (static_unopened unopened files files' http_root)
    refine ⟨opened, ?_⟩
    by_contra other
    have same := elsewhere _ (Ne.symm other)
    exact differ (by rw [static_opened opened, static_opened opened, same])
  · rintro ⟨opened, rfl⟩
    refine ⟨fun _ => .missing, Function.update (fun _ => .missing)
      (fileName http_root (asked url_path)) .throws, ?_, ?_⟩
    · intro other apart
      rw [Function.update_of_ne apart]
    · rw [static_opened opened, static_opened opened, Function.update_self]
      exact Option.some_ne_none notFound

theorem hasDotDot_occurs {p : Bytes} (climbs : [46, 46] <:+: p) : hasDotDot p = true := by
  induction p with
  | nil => simp at climbs
  | cons b p ih =>
    rcases List.infix_cons_iff.mp climbs with front | later
    · obtain ⟨rest, shape⟩ := front
      injection shape with first second
      rw [← first, ← second]
      rfl
    · simp only [hasDotDot, ih later, Bool.or_true]

theorem cString_begins (s : Bytes) : cString s <+: s := List.takeWhile_prefix _

theorem stripped_level {p : Bytes} (level : ¬ hasDotDot p = true) :
    ¬ Climbs 47 46 (cString (stripped p)) := by
  intro climbs
  apply level
  have here := (segment_occurs 47 climbs).trans (cString_begins _).isInfix
  have tail : stripped p <:+: p := by
    unfold stripped
    split
    · exact (List.tail_suffix p).isInfix
    · exact List.infix_rfl
  exact hasDotDot_occurs (here.trans tail)

/- A NUL byte in the root cuts off everything behind it. -/
theorem cString_cut {root : Bytes} (cut : 0 ∈ root) (rel : Bytes) :
    cString (join 47 root rel) = cString root := by
  have stops : (root.takeWhile (· != 0)).length ≠ root.length := by
    intro whole
    have all := List.takeWhile_eq_self_iff.mp
      ((List.takeWhile_prefix (· != (0 : UInt8))).eq_of_length whole)
    simpa using all 0 cut
  have appended (rest : Bytes) : cString (root ++ rest) = cString root := by
    rw [cString, List.takeWhile_append, if_neg stops, cString]
  unfold join
  split
  · exact appended rel
  · exact appended (47 :: rel)

theorem cString_join {root : Bytes} (plain : 0 ∉ root) (rel : Bytes) :
    cString (join 47 root rel) = join 47 root (cString rel) := by
  have whole : ∀ b ∈ root, (b != 0) = true := by
    intro b member
    simpa using fun same : b = 0 => plain (same ▸ member)
  unfold join
  split
  · exact List.takeWhile_append_of_pos whole
  · rw [cString, List.takeWhile_append_of_pos whole]
    rfl

theorem cString_plain {root : Bytes} (plain : 0 ∉ root) : cString root = root := by
  refine List.takeWhile_eq_self_iff.mpr ?_
  intro b member
  simpa using fun same : b = 0 => plain (same ▸ member)

theorem stripped_absolute (url_path : Bytes) :
    Absolute 47 (cString (stripped (asked url_path))) ↔ [47, 47] <+: url_path := by
  have first (q : Bytes) : Absolute 47 (cString q) ↔ q.head? = some 47 := by
    cases q with
    | nil => simp [Absolute, cString]
    | cons b q =>
      by_cases zero : b = 0
      · subst zero
        exact iff_of_false (by simp [Absolute, cString]) (by simp)
      · simp [Absolute, cString, zero]
  rw [first]
  unfold asked
  split
  · rename_i index
    refine iff_of_false (by decide +kernel) ?_
    rcases index with rfl | rfl <;> decide
  · cases url_path with
    | nil => simp [stripped]
    | cons b rest =>
      by_cases slash : b = 47
      · subst slash
        cases rest with
        | nil => simp [stripped]
        | cons c rest => simp [stripped, List.cons_prefix_cons, eq_comm]
      · simp [stripped, slash, List.cons_prefix_cons, Ne.symm slash]

section
variable {http_root url_path : Bytes}

theorem joined_iff (plain : 0 ∉ http_root) (opened : ¬ Unopened url_path) :
    Joined http_root (fileName http_root (asked url_path)) ↔ ¬ [47, 47] <+: url_path := by
  rw [fileName_join, cString_join plain, ← stripped_absolute]
  rw [← asked_unopened, not_or] at opened
  constructor
  · rintro ⟨rel, same, relative, _⟩
    rw [join_injective 47 http_root same]
    exact relative
  · exact fun relative => ⟨_, rfl, relative, stripped_level opened.1⟩

theorem joined_plain (joined : Joined http_root (fileName http_root (asked url_path))) :
    0 ∉ http_root := by
  intro cut
  obtain ⟨rel, same, _⟩ := joined
  have inside : (0 : UInt8) ∈ fileName http_root (asked url_path) := by
    rw [same]
    unfold join
    split
    · exact List.mem_append_left _ cut
    · exact List.mem_append_left _ cut
  have kept := List.mem_takeWhile_imp inside
  exact absurd kept (by decide)

theorem inside_iff (opened : ¬ Unopened url_path) :
    Inside 47 46 (cString http_root) (fileName http_root (asked url_path)) ↔
      ¬ (http_root = [] ∧ [47, 47] <+: url_path) := by
  rw [← asked_unopened, not_or] at opened
  rw [fileName_join, ← stripped_absolute]
  by_cases cut : 0 ∈ http_root
  · rw [cString_cut cut]
    refine iff_of_true (inside_self 47 46 _) ?_
    rintro ⟨rfl, _⟩
    exact absurd cut List.not_mem_nil
  · rw [cString_join cut, cString_plain cut]
    constructor
    · rintro inside ⟨rfl, absolute⟩
      exact absolute_outside 47 46 absolute inside
    · intro anchored
      exact inside_join 47 46 (not_and_or.mp anchored) (stripped_level opened.1)

end

/- A path that begins with one separator, or with none, is joined to the root as it should be. One
   that begins with two is absolute behind the first; with an empty root it leaves the working
   directory. -/
theorem static_confined_exact (http_root url_path : Bytes) :
    ((∀ name, Opens http_root url_path name → Confined http_root name) ↔
        Unopened url_path ∨ (0 ∉ http_root ∧ ¬ [47, 47] <+: url_path)) ∧
      ((∀ name, Opens http_root url_path name → Inside 47 46 (cString http_root) name) ↔
        Unopened url_path ∨ ¬ (http_root = [] ∧ [47, 47] <+: url_path)) := by
  by_cases opened : Unopened url_path
  · have never (name : Bytes) : ¬ Opens http_root url_path name :=
      fun opens => (opens_iff.mp opens).1 opened
    exact ⟨iff_of_true (fun name opens => absurd opens (never name)) (.inl opened),
      iff_of_true (fun name opens => absurd opens (never name)) (.inl opened)⟩
  · have only (P : Bytes → Prop) : (∀ name, Opens http_root url_path name → P name) ↔
        P (fileName http_root (asked url_path)) := by
      constructor
      · exact fun every => every _ (opens_iff.mpr ⟨opened, rfl⟩)
      · intro holds name opens
        rw [(opens_iff.mp opens).2]
        exact holds
    rw [only, only, or_iff_right opened, or_iff_right opened]
    refine ⟨?_, inside_iff opened⟩
    constructor
    · rintro ⟨joined, _⟩
      have plain := joined_plain joined
      exact ⟨plain, (joined_iff plain opened).mp joined⟩
    · rintro ⟨plain, single⟩
      exact ⟨(joined_iff plain opened).mpr single,
        (inside_iff opened).mpr fun escape => single escape.2⟩

theorem static_escapes :
    ¬ ∀ http_root buf url_path, parseGetPath buf = some url_path →
        ∀ name, Opens http_root url_path name → Confined http_root name := by
  intro claimed
  have requested :
      parseGetPath (bytes "GET //etc/passwd HTTP/1.1\r\n") = some (bytes "//etc/passwd") := by
    decide +kernel
  have opened : ¬ Unopened (bytes "//etc/passwd") := by
    unfold Unopened
    decide +kernel
  have name : fileName [] (asked (bytes "//etc/passwd")) = bytes "/etc/passwd" := by decide +kernel
  have confined :=
    claimed [] _ _ requested (bytes "/etc/passwd") (opens_iff.mpr ⟨opened, name.symm⟩)
  have absolute : Absolute 47 (bytes "/etc/passwd") := by
    unfold Absolute
    decide +kernel
  exact absolute_outside 47 46 absolute confined.2

end HttpResponder
