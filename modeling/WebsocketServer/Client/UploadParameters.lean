import WebsocketServer.Client.PayloadSizes
import WebsocketServer.Client.WireFormat
import WebsocketServer.Library.CString

/- From the command line and a file to the parameters of the FILE_START. -/
namespace MainClient
open FileTransferManager

/-- A regular file and a --chunk-size that std::stoul parses. -/
structure UploadArguments where
  filePath : Bytes
  content : Bytes
  chunkSizeArgument : String
  parsed : Nat
  off_t_size : content.length < 2 ^ 63
  parses : CString.stoul chunkSizeArgument.toList = some parsed

namespace UploadArguments
variable (a : UploadArguments)

/-- static_cast<uint32_t>(std::stoul(argv[++i])) -/
def chunkSize : UInt32 := UInt32.ofNat a.parsed

/-- The upload the program goes on with; none is the division by zero. No argument and no file is
    refused before it. -/
def upload : Option Upload :=
  if divisible : a.chunkSize ≠ 0 then
    some { filePath := a.filePath, content := a.content, chunkSize := a.chunkSize
           off_t_size := a.off_t_size, divisible }
  else none

end UploadArguments

namespace Upload
variable (u : Upload)

def exactChunks : Nat := u.content.length ⌈/⌉ u.chunkSize.toNat

structure ValidParameters : Prop where
  chunkSize : 1 ≤ u.chunkSize.toNat
  totalChunks : u.totalChunks.toNat = u.exactChunks
  accepted : ∃ p r, u.startPayload = MSG_FILE_START :: p ∧ checkStart p = .ok r

/- The server looks at nothing but the two counts once the message has its layout. -/
theorem checkStart_upload : (∃ p r, u.startPayload = MSG_FILE_START :: p ∧ checkStart p = .ok r) ↔
    u.totalChunks ≠ 0 := by
  have short : ((fileBasename u.filePath).take 512).length ≤ 512 := List.length_take_le ..
  let r : StartRequest := ⟨u.fileId, u.fileSize, u.chunkSize, u.totalChunks, u.computeFileCrc32,
    (fileBasename u.filePath).take 512⟩
  have decoded : decodeStart u.startPayload.tail = .ok r := by
    simp only [Upload.startPayload, List.cons_append, List.tail_cons, List.append_assoc]
    exact decodeStart_fields r short
  have whole (p : Bytes) : u.startPayload = MSG_FILE_START :: p ↔ p = u.startPayload.tail := by
    constructor
    · intro same
      rw [same, List.tail_cons]
    · rintro rfl
      rfl
  simp only [whole, exists_and_left, exists_eq_left]
  rw [checkStart_decodes, decoded, Except.bind, checkParams]
  by_cases zero : u.totalChunks = 0
  · simp [r, zero]
  · simp [r, zero, u.divisible]

theorem validParameters_exact :
    u.ValidParameters ↔ u.content ≠ [] ∧ u.exactChunks < 2 ^ 32 := by
  have positive := u.chunkSize_pos
  have count : u.totalChunks.toNat = u.exactChunks % 2 ^ 32 := by
    rw [totalChunks_toNat, exactChunks, Nat.ceilDiv_eq_add_pred_div]
  have none_exact : u.exactChunks = 0 ↔ u.content = [] := by
    rw [exactChunks, ← List.length_eq_zero_iff, ← Nat.le_zero, ceilDiv_le_iff_le_mul positive,
      Nat.mul_zero, Nat.le_zero]
  constructor
  · intro valid
    have word := u.totalChunks.toNat_lt
    have some_chunk := u.checkStart_upload.mp valid.accepted
    rw [Ne, ← UInt32.toNat_inj] at some_chunk
    refine ⟨?_, valid.totalChunks ▸ word⟩
    intro empty
    exact some_chunk (valid.totalChunks.trans (none_exact.mpr empty))
  · intro valid
    have exact_count := count.trans (Nat.mod_eq_of_lt valid.2)
    refine ⟨positive, exact_count, u.checkStart_upload.mpr ?_⟩
    intro zero
    apply valid.1
    rw [← none_exact, ← exact_count, zero]
    rfl

end Upload

/-- The client's parameters are valid exactly when the low 32 bits of the chunk size are not all
    zero, the file is not empty, and the number of chunks fits into 32 bits. -/
theorem parameters_valid_exact (a : UploadArguments) :
    (∃ u, a.upload = some u ∧ u.ValidParameters) ↔
      a.parsed % 2 ^ 32 ≠ 0 ∧ a.content ≠ [] ∧
        a.content.length ⌈/⌉ (a.parsed % 2 ^ 32) < 2 ^ 32 := by
  have low : a.chunkSize.toNat = a.parsed % 2 ^ 32 := UInt32.toNat_ofNat'
  have zero : a.chunkSize ≠ 0 ↔ a.parsed % 2 ^ 32 ≠ 0 := by
    rw [← low, Ne, Ne, ← UInt32.toNat_inj]
    rfl
  by_cases divisible : a.chunkSize ≠ 0
  · simp only [UploadArguments.upload, divisible, ↓reduceDIte, Option.some.injEq, exists_eq_left',
      Upload.validParameters_exact, Upload.exactChunks, low, zero.mp divisible, ne_eq,
      not_false_eq_true, true_and]
  · simp only [UploadArguments.upload, divisible, ↓reduceDIte, reduceCtorEq, false_and]
    constructor
    · intro none
      exact none.elim fun _ absent => absent.elim
    · intro valid
      exact absurd (zero.mpr valid.1) divisible

def emptyFile : UploadArguments :=
  ⟨CString.bytes "empty.bin", [], "65536", 65536, by decide, by decide⟩

def zeroChunkSize : UploadArguments :=
  ⟨CString.bytes "one.bin", [1], "0", 0, by simp, by decide⟩

/- The server refuses the FILE_START of an empty file, and a chunk size of 0 divides by zero. -/
theorem parameters_invalid :
    ¬ (∃ u, emptyFile.upload = some u ∧ u.ValidParameters) ∧
      ¬ (∃ u, zeroChunkSize.upload = some u ∧ u.ValidParameters) := by
  constructor
  · rintro ⟨u, same, valid⟩
    have content : u.content = [] := by
      rw [← Option.some.inj same]
      rfl
    exact (u.validParameters_exact.mp valid).1 content
  · rintro ⟨u, same, _⟩
    have trapped : zeroChunkSize.upload = none := by decide
    rw [trapped] at same
    contradiction

end MainClient
