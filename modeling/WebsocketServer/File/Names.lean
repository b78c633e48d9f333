import WebsocketServer.File.Representation
import WebsocketServer.Library.PathName
import WebsocketServer.Library.Utf8

/- The names uploaded files get. -/
namespace FileTransferManager

/-- What a client's name may be once it is cleaned. -/
structure Sanitized (name : Bytes) : Prop where
  short : name.length ≤ 200
  plain : ∀ c ∈ name, 32 ≤ c ∧ c ∉ CString.bytes "/\\:<>\"|*?"
  tail : ∀ c, name.getLast? = some c → c ≠ space ∧ c ≠ dot

/-- One entry of the upload directory and no other place. -/
structure UploadEntry (path : Bytes) : Prop where
  component : ∃ entry, path = CString.bytes "uploads/" ++ entry ∧ entry ≠ [] ∧
    entry ≠ [dot] ∧ entry ≠ [dot, dot] ∧ slash ∉ entry ∧ 0 ∉ entry
  inside : PathName.Inside slash dot kUploadsDir path

theorem dropped_iff (c : UInt8) :
    dropped c = false ↔ 32 ≤ c ∧ c ∉ CString.bytes "/\\:<>\"|*?" := by
  have all : ∀ n : Fin 256, dropped (UInt8.ofNat n) = false ↔
      32 ≤ UInt8.ofNat n ∧ UInt8.ofNat n ∉ CString.bytes "/\\:<>\"|*?" := by
    decide +kernel
  have here := all ⟨c.toNat, c.toNat_lt⟩
  rwa [UInt8.ofNat_toNat] at here

theorem trimTail_eq (s : Bytes) : trimTail s = s.rdropWhile fun c => c == space || c == dot := rfl

theorem basenameOnly_eq (raw : Bytes) :
    basenameOnly raw = raw.rtakeWhile fun c => c != slash && c != backslash := rfl

theorem trimTail_prefix (s : Bytes) : trimTail s <+: s := List.rdropWhile_prefix _ _

theorem trimTail_tail {s : Bytes} {c : UInt8} (last : (trimTail s).getLast? = some c) :
    c ≠ space ∧ c ≠ dot := by
  rw [trimTail_eq] at last
  obtain ⟨front, shape⟩ := List.getLast?_eq_some_iff.mp last
  have filled : s.rdropWhile (fun c => c == space || c == dot) ≠ [] := by simp [shape]
  have kept := List.rdropWhile_last_not _ s filled
  rw [List.getLast?_eq_some_getLast filled, Option.some.injEq] at last
  rw [last] at kept
  simpa using kept

theorem trimTail_kept {s : Bytes} (tail : ∀ c, s.getLast? = some c → c ≠ space ∧ c ≠ dot) :
    trimTail s = s := by
  rw [trimTail_eq, List.rdropWhile_eq_self_iff]
  intro filled
  have last := tail _ (List.getLast?_eq_some_getLast filled)
  simpa using last

theorem sanitized (raw : Bytes) : Sanitized (sanitizeOriginalFilename raw) := by
  unfold sanitizeOriginalFilename
  dsimp only
  split
  · exact ⟨by simp, by simp, by simp⟩
  · have front := trimTail_prefix
      (((trimTail (basenameOnly raw)).filter fun c => !dropped c).take 200)
    refine ⟨front.length_le.trans (List.length_take_le ..), ?_, fun c => trimTail_tail⟩
    intro c member
    have kept := List.of_mem_filter (List.mem_of_mem_take (front.subset member))
    exact (dropped_iff c).mp (by simpa using kept)

theorem sanitize_kept {name : Bytes} (clean : Sanitized name) :
    sanitizeOriginalFilename name = name := by
  have base : basenameOnly name = name := by
    rw [basenameOnly_eq, List.rtakeWhile_eq_self_iff]
    intro c member
    have others := (clean.plain c member).2
    have separators : slash ∈ CString.bytes "/\\:<>\"|*?" ∧
        backslash ∈ CString.bytes "/\\:<>\"|*?" := by decide +kernel
    have apart : c ≠ slash ∧ c ≠ backslash := by
      constructor
      · rintro rfl
        exact others separators.1
      · rintro rfl
        exact others separators.2
    simpa using apart
  have whole : name.filter (fun c => !dropped c) = name := by
    apply List.filter_eq_self.mpr
    intro c member
    simp [(dropped_iff c).mpr (clean.plain c member)]
  unfold sanitizeOriginalFilename
  dsimp only
  rw [base, trimTail_kept clean.tail, whole, List.take_of_length_le clean.short,
    trimTail_kept clean.tail]
  split
  · rename_i dots
    rcases dots with rfl | rfl | rfl
    · rfl
    · exact absurd rfl (clean.tail dot rfl).2
    · exact absurd rfl (clean.tail dot rfl).2
  · rfl

/- The part of the final path behind the directory: a number, one of two bytes that are no digits,
   and the name. -/
theorem final_entry (file_id : UInt64) (name : Bytes) : ∃ c rest,
    makeFinalPath file_id name =
        CString.bytes "uploads/" ++ (CString.decimal file_id.toNat ++ c :: rest) ∧
      (c = dot ∧ rest = CString.bytes "bin" ∨ c = 95 ∧ rest = name) := by
  have directory : CString.bytes "uploads/" = kUploadsDir ++ CString.bytes "/" := by decide +kernel
  unfold makeFinalPath
  split
  · refine ⟨dot, CString.bytes "bin", ?_, .inl ⟨rfl, rfl⟩⟩
    rw [directory, List.append_assoc]
    rfl
  · refine ⟨95, name, ?_, .inr ⟨rfl, rfl⟩⟩
    rw [directory, List.append_assoc, List.append_assoc (CString.decimal _)]
    rfl

/- A path below the directory that is not cut by a separator is one entry of it. -/
theorem entry_inside {entry : Bytes} (single : slash ∉ entry) (level : entry ≠ [dot, dot]) :
    PathName.Inside slash dot kUploadsDir (CString.bytes "uploads/" ++ entry) := by
  have joined : CString.bytes "uploads/" ++ entry = PathName.join slash kUploadsDir entry := by
    have opened : ¬ (kUploadsDir = [] ∨ kUploadsDir.getLast? = some slash) := by decide +kernel
    have directory : CString.bytes "uploads/" = kUploadsDir ++ [slash] := by decide +kernel
    rw [PathName.join, if_neg opened, directory, List.append_assoc, List.singleton_append]
  have whole : entry.splitOn slash = [entry] := List.splitOn_eq_singleton single
  rw [joined]
  apply PathName.inside_join
  · left
    decide +kernel
  · rw [PathName.Climbs, whole, List.mem_singleton]
    exact fun same => level same.symm

theorem final_path_entry {name : Bytes} (clean : Sanitized name) (file_id : UInt64) :
    UploadEntry (makeFinalPath file_id name) := by
  obtain ⟨c, rest, path, kind⟩ := final_entry file_id name
  have absent : ∀ b : UInt8, b = slash ∨ b = 0 →
      b ∉ CString.decimal file_id.toNat ++ c :: rest := by
    intro b special member
    have out : CString.isDigit b = false ∧ b ≠ dot ∧ b ≠ 95 ∧ b ∉ CString.bytes "bin" ∧
        ¬ (32 ≤ b ∧ b ∉ CString.bytes "/\\:<>\"|*?") := by
      rcases special with rfl | rfl <;> decide +kernel
    rcases List.mem_append.mp member with digit | later
    · exact absurd (CString.decimal_digits digit) (by rw [out.1]; decide)
    · rcases kind with ⟨rfl, rfl⟩ | ⟨rfl, rfl⟩
      · rcases List.mem_cons.mp later with same | inside
        · exact out.2.1 same
        · exact out.2.2.2.1 inside
      · rcases List.mem_cons.mp later with same | inside
        · exact out.2.2.1 same
        · exact out.2.2.2.2 (clean.plain b inside)
  have first : (CString.decimal file_id.toNat ++ c :: rest).head? ≠ some dot := by
    cases digits : CString.decimal file_id.toNat with
    | nil => exact absurd digits (CString.decimal_ne_nil _)
    | cons d ds =>
      have digit : CString.isDigit d = true := CString.decimal_digits (digits ▸ List.mem_cons_self)
      intro same
      obtain rfl : d = dot := Option.some.inj same
      exact absurd digit (by decide)
  have dots : CString.decimal file_id.toNat ++ c :: rest ≠ [dot, dot] := by
    intro same
    exact first (by rw [same]; rfl)
  have slashes := absent slash (.inl rfl)
  rw [path]
  refine ⟨⟨_, rfl, by simp, ?_, dots, slashes, absent 0 (.inr rfl)⟩, entry_inside slashes dots⟩
  intro same
  exact first (by rw [same]; rfl)

/-- A client's name becomes a plain, short name that cleaning leaves as it is, and the final path
    of the upload is an entry of the upload directory. -/
theorem names_confined (raw : Bytes) :
    Sanitized (sanitizeOriginalFilename raw) ∧
      sanitizeOriginalFilename (sanitizeOriginalFilename raw) = sanitizeOriginalFilename raw ∧
      ∀ file_id, UploadEntry (makeFinalPath file_id (sanitizeOriginalFilename raw)) :=
  ⟨sanitized raw, sanitize_kept (sanitized raw), final_path_entry (sanitized raw)⟩

def AllNamed (m : Manager) : Prop :=
  ∀ id st, m.g_states.lookup id = some st → Sanitized st.final_display_name

theorem perform_named {m : Manager} (sound : Sound m) (named : AllNamed m) (call : Call) :
    AllNamed (perform m call).1 := by
  intro id st found
  cases perform_session sound found with
  | @stays st now_seconds here => exact named id st here
  | created now_seconds starts own => exact sanitized _
  | @marked r now_seconds here => exact named id r.st here

/- Whatever the clients send, no upload is renamed to a place outside the directory. -/
theorem sessions_confined {m : Manager} (reachable : Reachable m) {id : UInt64} {st : FileState}
    (found : m.g_states.lookup id = some st) :
    UploadEntry (makeFinalPath st.file_id st.final_display_name) := by
  have named : AllNamed m :=
    reachable_keeps (fun disk => start_empty disk)
      (fun _ call sound named => perform_named sound named call) reachable
  exact final_path_entry (named id st found) st.file_id

/-- What the loop of sanitizeOriginalFilename would keep if it went on to the end. -/
def keptBytes (raw : Bytes) : Bytes := (trimTail (basenameOnly raw)).filter fun c => !dropped c

theorem valid_basename {raw : Bytes} (valid : Utf8.Valid raw) : Utf8.Valid (basenameOnly raw) := by
  let inside := fun c : UInt8 => c != slash && c != backslash
  have parts : raw.rdropWhile inside ++ basenameOnly raw = raw :=
    List.rdropWhile_append_rtakeWhile ..
  by_cases empty : raw.rdropWhile inside = []
  · rw [empty, List.nil_append] at parts
    rw [parts]
    exact valid
  · have last := List.rdropWhile_last_not inside raw empty
    rw [← List.dropLast_concat_getLast empty, List.append_assoc, List.singleton_append] at parts
    generalize (raw.rdropWhile inside).getLast empty = c at parts last
    have separator : c = slash ∨ c = backslash := by
      simpa [inside, Decidable.or_iff_not_imp_left] using last
    have ascii : c < 128 := by
      rcases separator with rfl | rfl <;> decide
    rw [← parts] at valid
    exact (Utf8.valid_split ascii valid).2

/- What is trimmed are characters of one byte. -/
theorem valid_trim (s : Bytes) : Utf8.Valid (trimTail s) ↔ Utf8.Valid s := by
  let blank := fun c : UInt8 => c == space || c == dot
  have parts : trimTail s ++ s.rtakeWhile blank = s := List.rdropWhile_append_rtakeWhile ..
  have ascii : ∀ c ∈ s.rtakeWhile blank, c < 128 := by
    intro c member
    have trimmed : c = space ∨ c = dot := by simpa [blank] using List.mem_rtakeWhile_imp member
    rcases trimmed with rfl | rfl <;> decide
  constructor
  · intro valid
    rw [← parts]
    exact Utf8.valid_append valid (Utf8.valid_ascii ascii)
  · intro valid
    cases tail : s.rtakeWhile blank with
    | nil =>
      rw [tail, List.append_nil] at parts
      rw [parts]
      exact valid
    | cons c rest =>
      rw [tail] at parts ascii
      rw [← parts] at valid
      exact (Utf8.valid_split (ascii c List.mem_cons_self) valid).1

theorem valid_kept {raw : Bytes} (valid : Utf8.Valid raw) : Utf8.Valid (keptBytes raw) := by
  apply Utf8.valid_filter _ ((valid_trim _).mpr (valid_basename valid))
  have all : ∀ n : Fin 256, 128 ≤ UInt8.ofNat n → (!dropped (UInt8.ofNat n)) = true := by
    decide +kernel
  intro b high
  have here := all ⟨b.toNat, b.toNat_lt⟩
  rw [UInt8.ofNat_toNat] at here
  exact here high

/-- A name in UTF-8 stays in UTF-8 exactly when the limit of 200 bytes does not fall inside a
    character. -/
theorem sanitized_valid_exact {raw : Bytes} (valid : Utf8.Valid raw) :
    Utf8.Valid (sanitizeOriginalFilename raw) ↔
      ∀ b, (keptBytes raw)[200]? = some b → Utf8.Starts b := by
  unfold sanitizeOriginalFilename
  dsimp only
  split
  · rename_i dots
    have short : (keptBytes raw).length ≤ 200 := by
      refine (List.length_filter_le ..).trans ?_
      rcases dots with same | same | same <;> simp [same]
    rw [List.getElem?_eq_none short]
    simpa using Utf8.valid_ascii (s := []) (by simp)
  · exact (valid_trim _).trans (Utf8.valid_take (valid_kept valid) 200)

/- A report in a directory, with blanks behind its name. -/
theorem short_name_valid :
    Utf8.Valid (sanitizeOriginalFilename (Utf8.encode "目录/报告?.txt. ".toList)) := by
  have valid := Utf8.valid_encode.mpr ⟨"目录/报告?.txt. ".toList, rfl⟩
  have short : (keptBytes (Utf8.encode "目录/报告?.txt. ".toList))[200]? = none := by decide +kernel
  refine (sanitized_valid_exact valid).mpr ?_
  rw [short]
  simp

def longName : Bytes := Utf8.encode ('a' :: List.replicate 67 '文')

theorem long_name_broken :
    ¬ ∀ raw : Bytes, raw.length ≤ 512 → Utf8.Valid raw →
      Utf8.Valid (sanitizeOriginalFilename raw) := by
  intro claimed
  have valid : Utf8.Valid longName := Utf8.valid_encode.mpr ⟨_, rfl⟩
  have cut : sanitizeOriginalFilename longName = longName.take 200 := by decide +kernel
  have name := claimed longName (by decide +kernel) valid
  rw [cut, Utf8.valid_take valid] at name
  exact absurd (name 150 (by decide +kernel)) (by decide)

end FileTransferManager
