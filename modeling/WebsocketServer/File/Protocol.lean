import WebsocketServer.Common.Crc32
import WebsocketServer.Common.ErrorCodes

/- The message layout and the file names of the upload protocol. -/
namespace FileTransferManager

def MSG_FILE_START : UInt8 := 1
def MSG_FILE_QUERY : UInt8 := 2
def MSG_FILE_CHUNK : UInt8 := 3
def MSG_FILE_QUERY_RESPONSE : UInt8 := 101
def MSG_FILE_CHUNK_ACK : UInt8 := 102
def MSG_FILE_FINISH_ACK : UInt8 := 103
def MSG_FILE_ERROR : UInt8 := 255

def readU16BE (p : Bytes) : UInt16 := UInt16.ofNat (BigEndian.value (p.take 2))
def readU32BE (p : Bytes) : UInt32 := UInt32.ofNat (BigEndian.value (p.take 4))
def readU64BE (p : Bytes) : UInt64 := UInt64.ofNat (BigEndian.value (p.take 8))

def writeU16BE (v : UInt16) : Bytes := BigEndian.digits 2 v.toNat
def writeU32BE (v : UInt32) : Bytes := BigEndian.digits 4 v.toNat
def writeU64BE (v : UInt64) : Bytes := BigEndian.digits 8 v.toNat

def kUploadsDir : Bytes := CString.bytes "uploads"

def makeTempPath (fileId : UInt64) : Bytes :=
  kUploadsDir ++ CString.bytes "/tmp_" ++ CString.decimal fileId.toNat ++ CString.bytes ".bin"

def slash : UInt8 := 47
def backslash : UInt8 := 92
def space : UInt8 := 32
def dot : UInt8 := 46

def basenameOnly (raw : Bytes) : Bytes :=
  (raw.reverse.takeWhile fun c => c != slash && c != backslash).reverse

/-- while (!s.empty() && (s.back() == ' ' || s.back() == '.')) s.pop_back(); -/
def trimTail (s : Bytes) : Bytes := (s.reverse.dropWhile fun c => c == space || c == dot).reverse

/-- Besides control characters the loop drops / \ : < > " | * ?. -/
def dropped (c : UInt8) : Bool :=
  c < 32 || c == slash || c == backslash || c == 58 || c == 60 || c == 62 || c == 34 || c == 124 ||
    c == 42 || c == 63

def sanitizeOriginalFilename (raw : Bytes) : Bytes :=
  let base := trimTail (basenameOnly raw)
  if base = [] ∨ base = [dot] ∨ base = [dot, dot] then []
  else trimTail ((base.filter fun c => !dropped c).take 200)

def makeFinalPath (fileId : UInt64) (sanitized_name : Bytes) : Bytes :=
  kUploadsDir ++ CString.bytes "/" ++
    if sanitized_name = [] then CString.decimal fileId.toNat ++ CString.bytes ".bin"
    else CString.decimal fileId.toNat ++ CString.bytes "_" ++ sanitized_name

/-- An error packet whose first byte is replaced for old clients. -/
def mkError (code : error_codes.Code) (reason : String) : Bytes :=
  (error_codes.buildBinaryError code reason).set 0 MSG_FILE_ERROR

@[simp] theorem length_writeU16BE (v : UInt16) : (writeU16BE v).length = 2 :=
  BigEndian.length_digits 2 _

@[simp] theorem length_writeU32BE (v : UInt32) : (writeU32BE v).length = 4 :=
  BigEndian.length_digits 4 _

@[simp] theorem length_writeU64BE (v : UInt64) : (writeU64BE v).length = 8 :=
  BigEndian.length_digits 8 _

@[simp] theorem readU16BE_writeU16BE (v : UInt16) (rest : Bytes) :
    readU16BE (writeU16BE v ++ rest) = v := by
  have whole : (writeU16BE v ++ rest).take 2 = writeU16BE v := List.take_left' (by simp)
  have small : v.toNat < 256 ^ 2 := v.toNat_lt
  unfold readU16BE
  rw [whole, writeU16BE, BigEndian.value_digits small, UInt16.ofNat_toNat]

@[simp] theorem readU32BE_writeU32BE (v : UInt32) (rest : Bytes) :
    readU32BE (writeU32BE v ++ rest) = v := by
  have whole : (writeU32BE v ++ rest).take 4 = writeU32BE v := List.take_left' (by simp)
  have small : v.toNat < 256 ^ 4 := v.toNat_lt
  unfold readU32BE
  rw [whole, writeU32BE, BigEndian.value_digits small, UInt32.ofNat_toNat]

@[simp] theorem readU64BE_writeU64BE (v : UInt64) (rest : Bytes) :
    readU64BE (writeU64BE v ++ rest) = v := by
  have whole : (writeU64BE v ++ rest).take 8 = writeU64BE v := List.take_left' (by simp)
  have small : v.toNat < 256 ^ 8 := v.toNat_lt
  unfold readU64BE
  rw [whole, writeU64BE, BigEndian.value_digits small, UInt64.ofNat_toNat]

theorem readU32BE_bytes (a b c d : UInt8) (rest : Bytes) :
    readU32BE (a :: b :: c :: d :: rest) =
      a.toUInt32 <<< 24 ||| b.toUInt32 <<< 16 ||| c.toUInt32 <<< 8 ||| d.toUInt32 := by
  change UInt32.ofNat (BigEndian.value [a, b, c, d]) = _
  rw [← BigEndian.word_value, UInt32.ofNat_toNat]

theorem writeU64BE_injective {a b : UInt64} {xs ys : Bytes}
    (same : writeU64BE a ++ xs = writeU64BE b ++ ys) : a = b ∧ xs = ys := by
  have value : a = b := by rw [← readU64BE_writeU64BE a xs, same, readU64BE_writeU64BE]
  rw [value, List.append_cancel_left_eq] at same
  exact ⟨value, same⟩

theorem makeTempPath_injective {a b : UInt64} (same : makeTempPath a = makeTempPath b) : a = b := by
  simp only [makeTempPath, List.append_assoc, List.append_cancel_left_eq] at same
  have numbers := CString.decimal_prefix_injective (by decide) (by decide) same
  exact UInt64.toNat_inj.mp numbers.1

/- A final name starts with a digit, a temporary one with a letter. -/
theorem makeFinalPath_ne_makeTempPath (a b : UInt64) (name : Bytes) :
    makeFinalPath a name ≠ makeTempPath b := by
  intro same
  have digits : ∃ d ds, CString.decimal a.toNat = d :: ds ∧ CString.isDigit d = true := by
    cases shape : CString.decimal a.toNat with
    | nil => exact absurd shape (CString.decimal_ne_nil _)
    | cons d ds => exact ⟨d, ds, rfl, CString.decimal_digits (shape ▸ List.mem_cons_self)⟩
  obtain ⟨d, ds, shape, digit⟩ := digits
  have split : CString.bytes "/tmp_" = CString.bytes "/" ++ CString.bytes "tmp_" := by decide
  have letter : CString.bytes "tmp_" = 116 :: CString.bytes "mp_" := by decide
  simp only [makeFinalPath, makeTempPath, split, List.append_assoc, List.append_cancel_left_eq,
    shape, letter, List.cons_append] at same
  have first : d = 116 := by
    split at same <;> exact (List.cons.inj same).1
  rw [first] at digit
  exact absurd digit (by decide)

theorem makeFinalPath_injective {a b : UInt64} {m n : Bytes}
    (same : makeFinalPath a m = makeFinalPath b n) : a = b := by
  have suffix (id : UInt64) (name : Bytes) : ∃ c rest, CString.isDigit c = false ∧
      makeFinalPath id name =
        kUploadsDir ++ (CString.bytes "/" ++ (CString.decimal id.toNat ++ c :: rest)) := by
    unfold makeFinalPath
    split
    · exact ⟨46, CString.bytes "bin", by decide, by
        rw [List.append_assoc]; rfl⟩
    · exact ⟨95, name, by decide, by rw [List.append_assoc, List.append_assoc]; rfl⟩
  obtain ⟨c, rest, stop, left⟩ := suffix a m
  obtain ⟨c', rest', stop', right⟩ := suffix b n
  rw [left, right, List.append_cancel_left_eq, List.append_cancel_left_eq] at same
  exact UInt64.toNat_inj.mp (CString.decimal_prefix_injective stop stop' same).1

end FileTransferManager
