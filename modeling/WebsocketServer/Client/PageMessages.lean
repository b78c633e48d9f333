import WebsocketServer.File.Answers
import WebsocketServer.Client.Demux
import WebsocketServer.Client.WireFormat

/- The messages of an upload from the page are those that the server expects, and its replies take
   the upload handler on. -/
namespace WebPage
open JavaScript FileTransferManager

theorem fnv1a64_small (str : List UInt16) : fnv1a64 str < 2 ^ 64 := by
  have below (h : Nat) (small : h < 2 ^ 64) : str.foldl
      (fun h unit => ((h ^^^ unit.toNat) * 1099511628211) &&& 0xffffffffffffffff) h < 2 ^ 64 := by
    induction str generalizing h with
    | nil => exact small
    | cons unit str ih =>
      apply ih
      exact Nat.lt_of_le_of_lt Nat.and_le_right (by decide)
  exact below _ (by decide)

theorem toInt32_small {x : Nat} (small : x < 2 ^ 31) : toInt32 x = x := by
  unfold toInt32
  apply Int.bmod_eq_of_le <;> omega

namespace Upload

structure Sendable (u : Upload) : Prop where
  nonempty : u.data ≠ []
  chunkSize : u.chunkSize < 2 ^ 32
  chunks : u.data.length ⌈/⌉ u.chunkSize < 2 ^ 31

def request (u : Upload) : StartRequest where
  file_id := UInt64.ofNat u.fileId
  file_size := UInt64.ofNat u.data.length
  chunk_size := UInt32.ofNat u.chunkSize
  total_chunks := UInt32.ofNat (u.data.length ⌈/⌉ u.chunkSize)
  expected_crc32 := CRC32.checksum u.data
  raw_filename := (textEncode u.name).take 512

variable {u : Upload}

theorem fileId_word : (UInt64.ofNat u.fileId).toNat = u.fileId := by
  rw [UInt64.toNat_ofNat']
  exact Nat.mod_eq_of_lt (fnv1a64_small u.name)

theorem fileSize_word : (UInt64.ofNat u.data.length).toNat = u.data.length := by
  have size := u.size
  rw [UInt64.toNat_ofNat', Nat.mod_eq_of_lt (by omega)]

theorem chunkSize_word (sendable : u.Sendable) :
    (UInt32.ofNat u.chunkSize).toNat = u.chunkSize := by
  rw [UInt32.toNat_ofNat', Nat.mod_eq_of_lt sendable.chunkSize]

theorem chunks_word (sendable : u.Sendable) :
    u.request.total_chunks.toNat = u.data.length ⌈/⌉ u.chunkSize := by
  have chunks := sendable.chunks
  simp only [request]
  rw [UInt32.toNat_ofNat', Nat.mod_eq_of_lt (by omega)]

def announced (sendable : u.Sendable) : FileTransferManager.Upload where
  data := u.data
  request := u.request
  nonempty := sendable.nonempty
  small := by have size := u.size; omega
  chunk_size := by
    intro zero
    have word := chunkSize_word sendable
    have ge := u.chunkSize_ge
    simp only [request] at zero
    rw [zero] at word
    simp at word
    omega
  size := fileSize_word
  total := by
    rw [chunks_word sendable]
    simp only [request]
    rw [chunkSize_word sendable, Nat.ceilDiv_eq_add_pred_div]
  crc := rfl

theorem totalChunks_eq (sendable : u.Sendable) :
    u.totalChunks = (u.request.total_chunks.toNat : Int) := by
  rw [chunks_word sendable]
  exact toInt32_small sendable.chunks

theorem chunks_positive (sendable : u.Sendable) : u.request.total_chunks ≠ 0 := by
  have first := List.length_pos_iff.mpr sendable.nonempty
  have some_chunk := FileTransferManager.Upload.chunk_of_byte (u := announced sendable) first
  intro zero
  change _ < u.request.total_chunks.toNat at some_chunk
  rw [zero] at some_chunk
  simp at some_chunk

theorem startMessage_eq (sendable : u.Sendable) :
    ∃ p, u.startMessage = some (MSG_FILE_START :: p) ∧
      checkStart p = .ok (announced sendable).request := by
  have built := Codec.buildFileStart_bytes (UInt64.ofNat u.fileId) (UInt64.ofNat u.data.length)
    u.chunkSize u.totalChunks u.expectedCrc u.name
  rw [fileId_word, fileSize_word, totalChunks_eq sendable, word_nat, word_nat, UInt32.ofNat_toNat,
    expectedCrc, crc32Bytes_eq, word_nat, UInt32.ofNat_toNat] at built
  have checked := checkStart_startPayload u.request (announced sendable).chunk_size
    (chunks_positive sendable) (List.length_take_le ..)
  have cut : startPayload u.request.file_id u.request.file_size u.request.chunk_size
      u.request.total_chunks u.request.expected_crc32 u.request.raw_filename =
        startPayload (UInt64.ofNat u.fileId) (UInt64.ofNat u.data.length) (UInt32.ofNat u.chunkSize)
          u.request.total_chunks (CRC32.checksum u.data) (textEncode u.name) := by
    simp only [startPayload, request, List.take_take, Nat.min_self]
  rw [cut] at checked
  refine ⟨_, ?_, checked⟩
  rw [startMessage, totalChunks_eq sendable, expectedCrc, crc32Bytes_eq, built]
  rfl

theorem queryMessage_eq (sendable : u.Sendable) :
    Codec.buildFileQuery u.fileId =
      MSG_FILE_QUERY :: FileTransferManager.writeU64BE (announced sendable).id := by
  rw [← Codec.buildFileQuery_bytes]
  congr 1
  exact fileId_word.symm

theorem slice_eq (sendable : u.Sendable) {i : Nat} (range : i < u.request.total_chunks.toNat) :
    u.slice i = (announced sendable).slice (UInt32.ofNat i) ∧ (u.slice i).length = u.curLen i := by
  have chunk : (announced sendable).chunk = u.chunkSize := chunkSize_word sendable
  have part : u.slice i = (u.data.drop (i * u.chunkSize)).take (u.curLen i) := by
    simp only [slice, subarray, List.drop_take, Nat.add_sub_cancel_left]
  have rest : (u.data.drop (i * u.chunkSize)).length = u.data.length - i * u.chunkSize :=
    List.length_drop
  rw [part]
  constructor
  · have cut : (u.data.drop (i * u.chunkSize)).take u.chunkSize = _ := List.take_eq_take_min
    rw [rest, Nat.min_comm] at cut
    rw [FileTransferManager.Upload.slice, (index_below range).1, chunk]
    exact cut.symm
  · rw [List.length_take, rest, curLen]
    omega

theorem sendChunk_eq (sendable : u.Sendable) {i : Nat} (range : i < u.request.total_chunks.toNat)
    (later : List Nat) : u.sendChunk (i :: later) =
      (.awaits u (.ack i later), [(announced sendable).message (UInt32.ofNat i)]) := by
  obtain ⟨same, length⟩ := slice_eq sendable range
  obtain ⟨index, range'⟩ := index_below range
  have whole : ¬ ((i : Int) + 1 ≠ u.totalChunks ∧ u.curLen i ≠ u.chunkSize) := by
    intro ⟨inner, short⟩
    apply short
    rw [← length, same, ← chunkSize_word sendable]
    apply FileTransferManager.Upload.slice_full range'
    intro last
    apply inner
    have next : (UInt32.ofNat i + 1).toNat = i + 1 := by
      rw [UInt32.toNat_add, index]
      have word := u.request.total_chunks.toNat_lt
      exact Nat.mod_eq_of_lt (by simp; omega)
    rw [totalChunks_eq sendable]
    rw [last] at next
    change u.request.total_chunks.toNat = i + 1 at next
    omega
  have built := Codec.buildFileChunk_bytes (UInt64.ofNat u.fileId) i
    (crc32Bytes (u.slice i)) (u.slice i)
  rw [fileId_word, word_nat, crc32Bytes_eq, word_nat, UInt32.ofNat_toNat] at built
  rw [sendChunk, if_neg whole]
  simp only [← length, crc32Bytes_eq, built]
  simp only [FileTransferManager.Upload.message, chunkPayload, ← same, List.cons_append,
    List.append_assoc]
  rfl

theorem missing_eq (sendable : u.Sendable) {bitmap : Bytes} {done : Finset Nat}
    (marks : Marks (announced sendable) bitmap done) :
    u.missingChunks bitmap = (List.range u.request.total_chunks.toNat).filter (· ∉ done) := by
  rw [missingChunks, totalChunks_eq sendable, Int.toNat_natCast]
  apply List.filter_congr
  intro i mem
  exact (marks_missing marks (List.mem_range.mp mem)).2

variable {answer : Answer} {k : Nat}

theorem resume_response (u : Upload) (id : UInt64) {total_chunks : UInt32} {bitmap : Bytes}
    (size : bitmap.length = (total_chunks.toNat + 7) / 8) :
    u.resume .start (queryResponse id total_chunks bitmap) =
        (.awaits u .query, [Codec.buildFileQuery u.fileId]) ∧
      u.resume .query (queryResponse id total_chunks bitmap) =
        u.sendChunk (u.missingChunks bitmap) := by
  have head : (queryResponse id total_chunks bitmap).head? = some MSG_FILE_QUERY_RESPONSE := rfl
  have regular : MSG_FILE_QUERY_RESPONSE ≠ MSG_FILE_ERROR := by decide
  have parsed := (queryResponse_decodes id size).web
  simp only [resume, head, Option.some.injEq, regular, ↓reduceIte, ne_eq, not_true_eq_false,
    responseBitmap, parsed, and_self]

theorem resume_ack {i : Nat} (range : i < u.request.total_chunks.toNat) (later : List Nat)
    (id : UInt64) (status : UInt8) :
    u.resume (.ack i later) (chunkAck id (UInt32.ofNat i) status) = u.sendChunk later := by
  have head : (chunkAck id (UInt32.ofNat i) status).head? = some MSG_FILE_CHUNK_ACK := rfl
  have regular : MSG_FILE_CHUNK_ACK ≠ MSG_FILE_ERROR := by decide
  have parsed := (chunkAck_decoded id (UInt32.ofNat i) status).2
  rw [(index_below range).1] at parsed
  simp only [resume, head, Option.some.injEq, regular, ↓reduceIte, parsed]

theorem resume_finish (u : Upload) (id : UInt64) (ok : UInt8) :
    u.resume .finish (finishAck id ok) = (.ended none, []) := by
  have head : (finishAck id ok).head? = some MSG_FILE_FINISH_ACK := rfl
  have regular : MSG_FILE_FINISH_ACK ≠ MSG_FILE_ERROR := by decide
  simp only [resume, head, Option.some.injEq, regular, ↓reduceIte]

end Upload

namespace Page
variable {p : Page} {k : Nat} {u : Upload} {answer : Answer}

/-- The upload of this click waits for an answer, and nothing else has come. -/
structure Waits (p : Page) (k : Nat) (u : Upload) (answer : Answer) : Prop where
  connected : p.readyState = some .open
  handler : p.handlers[k]? = some (.awaits u answer)
  waiter : p.binWaiter = some k
  empty : p.binQueue = []

def receive (p : Page) (u8 : Bytes) : Page × List Bytes :=
  match p.ws with
  | none => (p, [])
  | some i => ((p.step (.message i u8)).1, (p.step (.message i u8)).2.sent)

theorem transmit_open (r : Handler × List Bytes) : transmit (some .open) r = r := by
  unfold transmit
  split <;> rfl

theorem drain_nil (ready : Option ReadyState) (handler : Handler) :
    drain ready handler [] = (handler, [], [], []) := by
  cases handler <;> rfl

theorem settle_self {handler : Handler} (inside : k < p.handlers.length) :
    (p.settle k handler).handlers[k]? = some handler := by
  simp [settle, inside]

theorem Waits.receive (waits : p.Waits k u answer) (u8 : Bytes) :
    (p.receive u8).2 = (u.resume answer u8).2 ∧
      (p.receive u8).1.handlers[k]? = some (u.resume answer u8).1 ∧
      ∀ answer', (u.resume answer u8).1 = .awaits u answer' →
        (p.receive u8).1.Waits k u answer' := by
  have inside := (List.getElem?_eq_some_iff.mp waits.handler).1
  have handler : p.handlers.getD k .returned = .awaits u answer := by
    rw [List.getD_eq_getElem?_getD, waits.handler, Option.getD_some]
  obtain ⟨i, socket, opened⟩ := Option.bind_eq_some_iff.mp waits.connected
  have pushes : p.receive u8 = ((p.pushBinary u8).1, (p.pushBinary u8).2.sent) := by
    simp only [Page.receive, socket, step, opened, ↓reduceIte]
  have ready (binQueue : List Bytes) :
      ({ p with binWaiter := none, binQueue } : Page).readyState = some .open := waits.connected
  have run : p.receive u8 =
      ({ p with binWaiter := none, binQueue := [] }.settle k (u.resume answer u8).1,
        (u.resume answer u8).2) := by
    rw [pushes]
    simp only [pushBinary, waits.waiter, handler, waits.empty, proceed, ready, drain, transmit_open,
      drain_nil, List.append_nil]
  rw [run]
  refine ⟨rfl, settle_self inside, ?_⟩
  intro answer' next
  rw [next]
  exact ⟨waits.connected, settle_self inside, rfl, rfl⟩

end Page

end WebPage
