import WebsocketServer.File.Answers
import WebsocketServer.Client.LostFrames
import WebsocketServer.Client.UploadParameters

/- An upload of the command line client, played through against the server. The client sends
   FILE_START and FILE_QUERY one behind the other, and every read brings it one frame. -/
namespace MainClient
open FileTransferManager WebSocketCodec

theorem toChunks_go_flatten {α : Type} (n : Nat) (xs : List α) (acc₁ : Array α)
    (acc₂ : Array (List α)) :
    (List.toChunks.go n xs acc₁ acc₂).flatten = acc₂.toList.flatten ++ acc₁.toList ++ xs := by
  induction xs generalizing acc₁ acc₂ with
  | nil => simp [List.toChunks.go]
  | cons x xs ih =>
    unfold List.toChunks.go
    split
    · rw [ih]
      simp
    · rw [ih]
      simp

theorem toChunks_flatten {α : Type} (n : Nat) (xs : List α) : (xs.toChunks n).flatten = xs := by
  unfold List.toChunks
  split
  · rfl
  · simp
  · rw [toChunks_go_flatten]
    simp

namespace Upload
variable {u : Upload}

def sendsChunk (u : Upload) : List UInt32 → List Bytes
  | [] => []
  | chunkIndex :: _ =>
      match u.readChunk chunkIndex with
      | none => []
      | some data => [u.chunkPayload chunkIndex data]

def sends (u : Upload) (phase : Phase) (examined : List WsFrame) : Exit → List Bytes
  | .throws _ => []
  | .breaks =>
      match phase with
      | .ack _ later => u.sendsChunk later
      | _ => []
  | .continues =>
      match phase with
      | .text =>
          if gotText examined ∧ u.filePath ≠ [] then [u.startPayload, u.queryPayload] else []
      | .bitmap =>
          match gotBitmap examined with
          | none => []
          | some bitmap => u.sendsChunk (u.missingChunks bitmap)
      | _ => []

def receive (u : Upload) (phase : Phase) (f : WsFrame) : Phase × List Bytes :=
  let (examined, exit) := waitLoop phase.body [f]
  (u.afterLoop phase examined exit, u.sends phase examined exit)

section
variable {ssl : Upgrade.OpenSsl} {env : Upgrade.Environment} {wsKey : Bytes} {c : Client}

theorem step_receive {r : SslRead} {f : WsFrame}
    (one : (step ssl env wsKey u c r).2.returned = [f]) :
    (step ssl env wsKey u c r).1.phase = (u.receive c.phase f).1 := by
  have move := step_move ssl env wsKey u c r
  generalize step ssl env wsKey u c r = next at move one ⊢
  cases move with
  | batch awaits frames parser =>
    obtain rfl : frames = [f] := one
    rfl
  | idle | refused | gathers | heads | breaks => contradiction

theorem run_receive {reads : List SslRead} {frames : List WsFrame}
    (one : (Run.steps (step ssl env wsKey u) c reads).map (·.output.returned) =
      frames.map ([·])) :
    (Run.final (step ssl env wsKey u) c reads).phase =
      frames.foldl (fun phase f => (u.receive phase f).1) c.phase := by
  induction reads generalizing c frames with
  | nil =>
    cases frames with
    | nil => rfl
    | cons f frames => contradiction
  | cons r reads ih =>
    cases frames with
    | nil => contradiction
    | cons f frames =>
      simp only [Run.steps, List.map_cons, List.cons.injEq] at one
      have next := ih one.2
      rw [step_receive one.1] at next
      exact next

end

theorem computeFileCrc32_eq (u : Upload) : u.computeFileCrc32 = CRC32.checksum u.content := by
  have pieces (parts : List Bytes) (crc : UInt32) :
      parts.foldl CRC32.update crc = CRC32.update crc parts.flatten := by
    induction parts generalizing crc with
    | nil => rfl
    | cons part parts ih => rw [List.foldl_cons, ih, List.flatten_cons, CRC32.update_append]
  rw [computeFileCrc32, pieces, toChunks_flatten, CRC32.finish_update]

def request (u : Upload) : StartRequest where
  file_id := u.fileId
  file_size := u.fileSize
  chunk_size := u.chunkSize
  total_chunks := u.totalChunks
  expected_crc32 := u.computeFileCrc32
  raw_filename := (fileBasename u.filePath).take 512

def announced (valid : u.ValidParameters) : FileTransferManager.Upload where
  data := u.content
  request := u.request
  nonempty := (u.validParameters_exact.mp valid).1
  small := u.off_t_size
  chunk_size := u.divisible
  size := u.fileSize_toNat
  total := by
    rw [← Nat.ceilDiv_eq_add_pred_div]
    exact valid.totalChunks
  crc := u.computeFileCrc32_eq

theorem start_checked (valid : u.ValidParameters) :
    ∃ p, u.startPayload = MSG_FILE_START :: p ∧ checkStart p = .ok (announced valid).request := by
  have some_chunk := u.checkStart_upload.mp valid.accepted
  have checked := checkStart_startPayload u.request u.divisible some_chunk (List.length_take_le ..)
  have cut : FileTransferManager.startPayload u.request.file_id u.request.file_size
      u.request.chunk_size u.request.total_chunks u.request.expected_crc32 u.request.raw_filename =
        u.startPayload := by
    simp only [FileTransferManager.startPayload, startPayload, request, List.take_take,
      Nat.min_self]
  rw [cut] at checked
  exact ⟨_, rfl, checked⟩

theorem offset_toNat (u : Upload) (i : UInt32) :
    (u.offset i).toNat = i.toNat * u.chunkSize.toNat := by
  have first := i.toNat_lt
  have second := u.chunkSize.toNat_lt
  have product : i.toNat * u.chunkSize.toNat < 2 ^ 64 := by
    calc
      _ ≤ (2 ^ 32 - 1) * (2 ^ 32 - 1) := Nat.mul_le_mul (by omega) (by omega)
      _ < 2 ^ 64 := by decide
  rw [offset, UInt64.toNat_mul, UInt32.toNat_toUInt64, UInt32.toNat_toUInt64,
    Nat.mod_eq_of_lt product]

theorem readChunk_eq (valid : u.ValidParameters) {i : UInt32} (range : i < u.totalChunks) :
    u.readChunk i = some ((announced valid).slice i) := by
  have begins := FileTransferManager.Upload.slice_begins (u := announced valid) range
  have size := u.fileSize_toNat
  have offset := u.offset_toNat i
  change i.toNat * u.chunkSize.toNat < u.content.length at begins
  have rest : (u.fileSize - u.offset i).toNat =
      u.content.length - i.toNat * u.chunkSize.toNat := by
    rw [UInt64.toNat_sub_of_le _ _ (by rw [UInt64.le_iff_toNat_le]; omega), size, offset]
  have length := u.curLen_toNat i
  rw [rest] at length
  have cut : (u.content.drop (u.offset i).toNat).take (u.curLen i).toNat =
      (announced valid).slice i := by
    have short : (u.content.drop (i.toNat * u.chunkSize.toNat)).take u.chunkSize.toNat = _ :=
      List.take_eq_take_min
    rw [List.length_drop, Nat.min_comm] at short
    rw [offset, length]
    exact short.symm
  have whole : ((u.content.drop (u.offset i).toNat).take (u.curLen i).toNat).length =
      (u.curLen i).toNat := by
    rw [List.length_take, List.length_drop, offset, length]
    omega
  unfold readChunk
  rw [if_neg (not_not.mpr whole), cut]

/-- One of these chunks is sent with a wrong CRC. -/
def Flawed (u : Upload) (chunks : List Nat) : Prop :=
  ∃ i ∈ chunks, (UInt32.ofNat i).toInt32 = u.corruptChunkIndex

def Honest (u : Upload) : Prop := ¬ u.Flawed (List.range u.totalChunks.toNat)

/- Without the option for it, that is so: there is no chunk of index 2^32 - 1. -/
theorem default_honest (default : u.corruptChunkIndex = -1) : u.Honest := by
  rintro ⟨i, mem, same⟩
  have range := List.mem_range.mp mem
  have word := u.totalChunks.toNat_lt
  rw [default] at same
  have back := congrArg Int32.toUInt32 same
  rw [UInt32.toUInt32_toInt32] at back
  have last : i = 2 ^ 32 - 1 := by
    rw [← (index_below range).1, back]
    rfl
  omega

theorem chunkPayload_honest (valid : u.ValidParameters) {i : UInt32}
    (honest : i.toInt32 ≠ u.corruptChunkIndex) :
    u.chunkPayload i ((announced valid).slice i) = (announced valid).message i := by
  simp only [chunkPayload, if_neg honest]
  rfl

theorem chunkPayload_flawed {i : UInt32} (flawed : i.toInt32 = u.corruptChunkIndex) (data : Bytes) :
    ∃ crc, CRC32.checksum data ≠ crc ∧ u.chunkPayload i data =
      MSG_FILE_CHUNK :: (writeU64BE u.fileId ++ (writeU32BE i ++ (writeU32BE crc ++ data))) := by
  refine ⟨CRC32.checksum data ^^^ 0xFFFFFFFF, ?_, ?_⟩
  · intro same
    have cancelled := congrArg (CRC32.checksum data ^^^ ·) same
    simp only [UInt32.xor_self, ← UInt32.xor_assoc, UInt32.zero_xor] at cancelled
    contradiction
  · simp only [chunkPayload, if_pos flawed, List.cons_append, List.append_assoc]

theorem missing_eq (valid : u.ValidParameters) {bitmap : Bytes} {done : Finset Nat}
    (marks : Marks (announced valid) bitmap done) :
    u.missingChunks bitmap = (todo u.totalChunks.toNat done).map UInt32.ofNat := by
  rw [missingChunks, todo, List.filter_map]
  congr 1
  apply List.filter_congr
  intro i mem
  exact (marks_missing marks (List.mem_range.mp mem)).1

theorem sendChunk_eq (valid : u.ValidParameters) {i : UInt32} (range : i < u.totalChunks)
    (later : List UInt32) :
    u.sendChunk (i :: later) = .ack i later ∧
      u.sendsChunk (i :: later) = [u.chunkPayload i ((announced valid).slice i)] := by
  simp only [sendChunk, sendsChunk, readChunk_eq valid range, and_self]

def binary (payload : Bytes) : WsFrame := ⟨0x2, true, payload⟩

theorem receive_bitmap {id : UInt64} {total_chunks : UInt32} {bitmap : Bytes}
    (size : bitmap.length = (total_chunks.toNat + 7) / 8) :
    u.receive .bitmap (binary (queryResponse id total_chunks bitmap)) =
      (u.sendChunk (u.missingChunks bitmap), u.sendsChunk (u.missingChunks bitmap)) := by
  have parsed := (response_decoded id size).1
  have body : bitmapFrame (binary (queryResponse id total_chunks bitmap)) = .continues := rfl
  have got : gotBitmap [binary (queryResponse id total_chunks bitmap)] = some bitmap := by
    simp [gotBitmap, binary, parsed]
  simp only [receive, Phase.body, waitLoop, body, afterLoop, sends, got]

theorem receive_late (u : Upload) (i : UInt32) (later : List UInt32) (id : UInt64)
    (total_chunks : UInt32) (bitmap : Bytes) :
    u.receive (.ack i later) (binary (queryResponse id total_chunks bitmap)) =
      (.ack i later, []) := by
  have body : ackFrame i (binary (queryResponse id total_chunks bitmap)) = .continues := rfl
  simp only [receive, Phase.body, waitLoop, body, afterLoop, sends]

theorem receive_ack (u : Upload) (i : UInt32) (later : List UInt32) (id : UInt64)
    (status : UInt8) : u.receive (.ack i later) (binary (chunkAck id i status)) =
      (u.sendChunk later, u.sendsChunk later) := by
  have body : ackFrame i (binary (chunkAck id i status)) = .breaks :=
    ackFrame_breaks.mpr ⟨rfl, id, (chunkAck_decoded id i status).1⟩
  simp only [receive, Phase.body, waitLoop, body, afterLoop, sends]

theorem receive_error (u : Upload) (i : UInt32) (later : List UInt32) (code : error_codes.Code)
    (reason : String) : u.receive (.ack i later) (binary (mkError code reason)) =
      (.thrown "server file protocol error", []) := by
  have body : ackFrame i (binary (mkError code reason)) = .throws "server file protocol error" := by
    rfl
  simp only [receive, Phase.body, waitLoop, body, afterLoop, sends]

theorem receive_finish (u : Upload) (id : UInt64) (ok : UInt8) :
    u.receive .finish (binary (finishAck id ok)) = (.gotFinish, []) := by
  have body : finishFrame (binary (finishAck id ok)) = .breaks := rfl
  simp only [receive, Phase.body, waitLoop, body, afterLoop, sends]

end Upload

inductive Second (id : UInt64) (total_chunks : UInt32) : List Bytes → List Bytes → Nat → Prop where
  | asked : Second id total_chunks [MSG_FILE_QUERY :: writeU64BE id] [] 2
  | answered (bitmap : Bytes) : Second id total_chunks [] [queryResponse id total_chunks bitmap] 1
  | read : Second id total_chunks [] [] 0

/-- How far the upload is, and how many messages are still to be taken. Where c holds, a chunk that
    is sent with a wrong CRC is missing. -/
inductive Stage {u : Upload} (valid : u.ValidParameters) (c : Prop) :
    Conversation Phase → Nat → Prop where
  | opening {m : Manager} {payload : Bytes} (ready : Ready (u.announced valid) m)
      (fresh : c → Fresh (u.announced valid) m ∧ ¬ u.Honest)
      (start : checkStart payload = .ok u.request) :
      Stage valid c ⟨.bitmap, [MSG_FILE_START :: payload, MSG_FILE_QUERY :: writeU64BE u.fileId], m,
        []⟩ (2 * u.totalChunks.toNat + 5)
  | told {m : Manager} {done : Finset Nat} {bitmap : Bytes} {front back : List Bytes} {left : Nat}
      (unfinished : Unfinished (u.announced valid) m done)
      (flawed : c → u.Flawed (todo u.totalChunks.toNat done))
      (marks : Marks (u.announced valid) bitmap done)
      (second : Second u.fileId u.totalChunks front back left) :
      Stage valid c ⟨.bitmap, front, m, queryResponse u.fileId u.totalChunks bitmap :: back⟩
        (2 * u.totalChunks.toNat + 2 + left)
  | sending {m : Manager} {done : Finset Nat} {i : Nat} {later : List Nat}
      {front back : List Bytes} {left : Nat} (unfinished : Unfinished (u.announced valid) m done)
      (order : todo u.totalChunks.toNat done = i :: later) (flawed : c → u.Flawed (i :: later))
      (second : Second u.fileId u.totalChunks front back left) :
      Stage valid c ⟨.ack (UInt32.ofNat i) (later.map UInt32.ofNat),
        front ++ [u.chunkPayload (UInt32.ofNat i) ((u.announced valid).slice (UInt32.ofNat i))], m,
        back⟩ (2 * later.length + 3 + left)
  | acknowledged {m : Manager} {done : Finset Nat} {i : UInt32} {later : List Nat}
      {back : List Bytes} {left : Nat} (unfinished : Unfinished (u.announced valid) m done)
      (order : todo u.totalChunks.toNat done = later) (flawed : c → u.Flawed later)
      (second : Second u.fileId u.totalChunks [] back left) :
      Stage valid c ⟨.ack i (later.map UInt32.ofNat), [], m, back ++ [chunkAck u.fileId i 1]⟩
        (2 * later.length + 2 + left)
  | finishing {m : Manager} {i : UInt32} {back : List Bytes} {left : Nat}
      (completed : Completed (u.announced valid) m) (whole : ¬ c)
      (second : Second u.fileId u.totalChunks [] back left) :
      Stage valid c ⟨.ack i [], [], m, back ++ [chunkAck u.fileId i 1, finishAck u.fileId 1]⟩
        (2 + left)
  | finished {m : Manager} (completed : Completed (u.announced valid) m) (whole : ¬ c) :
      Stage valid c ⟨.finish, [], m, [finishAck u.fileId 1]⟩ 1
  | ended {m : Manager} (completed : Completed (u.announced valid) m) (whole : ¬ c) :
      Stage valid c ⟨.gotFinish, [], m, []⟩ 0
  | refused {m : Manager} {done : Finset Nat} {i j : UInt32} {later : List UInt32}
      {back : List Bytes} {left : Nat} (unfinished : Unfinished (u.announced valid) m done)
      (dishonest : ¬ u.Honest) (second : Second u.fileId u.totalChunks [] back left) :
      Stage valid c ⟨.ack i later, [], m, back ++ [mkError .FILE_CHUNK_CRC_MISMATCH
        "chunk crc32 mismatch", chunkAck u.fileId j 0]⟩ (2 + left)
  | thrown {m : Manager} {done : Finset Nat} {replies : List Bytes}
      (unfinished : Unfinished (u.announced valid) m done) (dishonest : ¬ u.Honest) :
      Stage valid c ⟨.thrown "server file protocol error", [], m, replies⟩ replies.length

def react (u : Upload) (phase : Phase) (payload : Bytes) : Phase × List Bytes :=
  u.receive phase (Upload.binary payload)

section
variable {u : Upload} {valid : u.ValidParameters} {c : Prop} {n : Nat} {s : Conversation Phase}

theorem stage_disturb (stage : Stage valid c s n) {call : Call}
    (elsewhere : Elsewhere (u.announced valid).id s.server call) :
    Stage valid c { s with server := (perform s.server call).1 } n := by
  cases stage with
  | opening ready fresh start =>
    obtain ⟨sound, keeps⟩ := elsewhere_keeps ready.1 elsewhere
    refine .opening (ready_kept ready sound keeps) ?_ start
    intro corrupts
    exact ⟨fresh_kept (fresh corrupts).1 keeps, (fresh corrupts).2⟩
  | told unfinished flawed marks second =>
    obtain ⟨sound, keeps⟩ := elsewhere_keeps unfinished.1.sound elsewhere
    exact .told (unfinished_kept unfinished sound keeps) flawed marks second
  | sending unfinished order flawed second =>
    obtain ⟨sound, keeps⟩ := elsewhere_keeps unfinished.1.sound elsewhere
    exact .sending (unfinished_kept unfinished sound keeps) order flawed second
  | acknowledged unfinished order flawed second =>
    obtain ⟨sound, keeps⟩ := elsewhere_keeps unfinished.1.sound elsewhere
    exact .acknowledged (unfinished_kept unfinished sound keeps) order flawed second
  | finishing completed whole second =>
    obtain ⟨sound, keeps⟩ := elsewhere_keeps completed.sound elsewhere
    exact .finishing (completed_kept completed sound keeps) whole second
  | finished completed whole =>
    obtain ⟨sound, keeps⟩ := elsewhere_keeps completed.sound elsewhere
    exact .finished (completed_kept completed sound keeps) whole
  | ended completed whole =>
    obtain ⟨sound, keeps⟩ := elsewhere_keeps completed.sound elsewhere
    exact .ended (completed_kept completed sound keeps) whole
  | refused unfinished dishonest second =>
    obtain ⟨sound, keeps⟩ := elsewhere_keeps unfinished.1.sound elsewhere
    exact .refused (unfinished_kept unfinished sound keeps) dishonest second
  | thrown unfinished dishonest =>
    obtain ⟨sound, keeps⟩ := elsewhere_keeps unfinished.1.sound elsewhere
    exact .thrown (unfinished_kept unfinished sound keeps) dishonest

def Onward (valid : u.ValidParameters) (c : Prop) (n : Nat) (next : Conversation Phase × Bool) :
    Prop :=
  ∃ left, Stage valid c next.1 left ∧ left + next.2.toNat ≤ n

theorem serve_first (react : Phase → Bytes → Phase × List Bytes) (phase : Phase) (m : Manager)
    (payload : Bytes) (requests replies : List Bytes) (sys : SysResults) :
    Dialogue.step (roles react) ⟨phase, payload :: requests, m, replies⟩ (.serve sys) =
      (⟨phase, requests, (handleClientMessage sys payload m).1,
        replies ++ (handleClientMessage sys payload m).2⟩, true) :=
  rfl

/- A new session lacks every chunk, the one with the wrong CRC among them. -/
theorem opening_told {m : Manager} {payload : Bytes} {sys : SysResults}
    (ready : Ready (u.announced valid) m) (fresh : c → Fresh (u.announced valid) m ∧ ¬ u.Honest)
    (start : checkStart payload = .ok u.request)
    (creates : Fresh (u.announced valid) m → Creates sys (replaced m u.fileId).disk) :
    ∃ done, Told (u.announced valid) (handleClientMessage sys (MSG_FILE_START :: payload) m).1 done
        (handleClientMessage sys (MSG_FILE_START :: payload) m).2 ∧
      (c → u.Flawed (todo u.totalChunks.toNat done)) := by
  by_cases corrupts : c
  · obtain ⟨fresh, dishonest⟩ := fresh corrupts
    refine ⟨∅, fresh_told ready.1 fresh start (creates fresh), ?_⟩
    intro _
    simp only [todo, Finset.notMem_empty, not_false_eq_true, decide_true, List.filter_true]
    exact not_not.mp dishonest
  · obtain ⟨done, told⟩ := start_told ready start creates
    exact ⟨done, told, fun holds => absurd holds corrupts⟩

theorem chunk_served {m : Manager} {done : Finset Nat} {i : Nat} {later : List Nat}
    {back : List Bytes} {left : Nat} {sys : SysResults}
    (unfinished : Unfinished (u.announced valid) m done)
    (order : todo u.totalChunks.toNat done = i :: later) (flawed : c → u.Flawed (i :: later))
    (second : Second u.fileId u.totalChunks [] back left)
    (stores : u.chunkPayload (UInt32.ofNat i) ((u.announced valid).slice (UInt32.ofNat i)) =
        (u.announced valid).message (UInt32.ofNat i) →
      Stores sys ((u.announced valid).slice (UInt32.ofNat i))) :
    Onward valid c (2 * later.length + 3 + left) (Dialogue.step (roles (react u))
      ⟨.ack (UInt32.ofNat i) (later.map UInt32.ofNat),
        [u.chunkPayload (UInt32.ofNat i) ((u.announced valid).slice (UInt32.ofNat i))], m, back⟩
      (.serve sys)) := by
  obtain ⟨inside, -⟩ := todo_next order
  rw [serve_first]
  by_cases corrupt : (UInt32.ofNat i).toInt32 = u.corruptChunkIndex
  · obtain ⟨crc, wrong, payload⟩ := Upload.chunkPayload_flawed corrupt
      ((u.announced valid).slice (UInt32.ofNat i))
    have range : UInt32.ofNat i < (u.announced valid).request.total_chunks := (index_below inside).2
    have answer := chunk_refused sys unfinished.1 range wrong
    change handleClientMessage sys (MSG_FILE_CHUNK :: (writeU64BE u.fileId ++ _)) m = _ at answer
    have dishonest : ¬ u.Honest := not_not.mpr ⟨i, List.mem_range.mpr inside, corrupt⟩
    rw [payload, answer]
    refine ⟨_, .refused unfinished dishonest second, ?_⟩
    simp only [Bool.toNat_true]
    omega
  · have payload := Upload.chunkPayload_honest valid corrupt
    have rest : c → u.Flawed later := by
      intro corrupts
      obtain ⟨k, mem, same⟩ := flawed corrupts
      rcases List.mem_cons.mp mem with rfl | behind
      · exact absurd same corrupt
      · exact ⟨k, behind, same⟩
    have own := stores payload
    rw [payload]
    rcases next_told unfinished order own with
      ⟨done', unfinished', order', replies⟩ | ⟨rfl, completed, replies⟩
    · rw [replies]
      refine ⟨_, .acknowledged unfinished' order' rest second, ?_⟩
      simp only [Bool.toNat_true]
      omega
    · have whole : ¬ c := by
        intro corrupts
        obtain ⟨k, mem, -⟩ := rest corrupts
        contradiction
      rw [replies]
      refine ⟨_, .finishing completed whole second, ?_⟩
      simp only [Bool.toNat_true, List.length_nil]
      omega

theorem stage_serve (stage : Stage valid c s n) {sys : SysResults}
    (undisturbed : Undisturbed (u.announced valid) s (.serve sys)) :
    Onward valid c n (Dialogue.step (roles (react u)) s (.serve sys)) := by
  obtain ⟨creates, stores⟩ := undisturbed
  have asked {m : Manager} {done : Finset Nat}
      (unfinished : Unfinished (u.announced valid) m done) :
      Told (u.announced valid)
        (handleClientMessage sys (MSG_FILE_QUERY :: writeU64BE u.fileId) m).1 done
        (handleClientMessage sys (MSG_FILE_QUERY :: writeU64BE u.fileId) m).2 :=
    query_told sys unfinished
  cases stage with
  | @opening m payload ready fresh start =>
    obtain ⟨done, told, flawed⟩ := opening_told ready fresh start (creates payload rfl)
    obtain ⟨bitmap, replies, marks⟩ := told.reply
    rw [serve_first, replies]
    exact ⟨_, .told told.unfinished flawed marks .asked, Nat.le_refl _⟩
  | @told m done bitmap front back left unfinished flawed marks second =>
    cases second with
    | asked =>
      obtain ⟨bitmap', replies, -⟩ := (asked unfinished).reply
      rw [serve_first, replies]
      exact ⟨_, .told (asked unfinished).unfinished flawed marks (.answered bitmap'),
        Nat.le_refl _⟩
    | answered bitmap' =>
      exact ⟨_, .told unfinished flawed marks (.answered bitmap'), Nat.le_refl _⟩
    | read => exact ⟨_, .told unfinished flawed marks .read, Nat.le_refl _⟩
  | @sending m done i later front back left unfinished order flawed second =>
    have range : UInt32.ofNat i < (u.announced valid).request.total_chunks :=
      (index_below (todo_next order).1).2
    cases second with
    | asked =>
      obtain ⟨bitmap', replies, -⟩ := (asked unfinished).reply
      rw [List.singleton_append, serve_first, replies]
      exact ⟨_, .sending (asked unfinished).unfinished order flawed (.answered bitmap'),
        Nat.le_refl _⟩
    | answered bitmap' =>
      exact chunk_served unfinished order flawed (.answered bitmap') fun same =>
        stores _ range (congrArg some same)
    | read =>
      exact chunk_served unfinished order flawed .read fun same =>
        stores _ range (congrArg some same)
  | acknowledged unfinished order flawed second =>
    exact ⟨_, .acknowledged unfinished order flawed second, Nat.le_refl _⟩
  | finishing completed whole second =>
    exact ⟨_, .finishing completed whole second, Nat.le_refl _⟩
  | finished completed whole => exact ⟨_, .finished completed whole, Nat.le_refl _⟩
  | ended completed whole => exact ⟨_, .ended completed whole, Nat.le_refl _⟩
  | refused unfinished dishonest second =>
    exact ⟨_, .refused unfinished dishonest second, Nat.le_refl _⟩
  | thrown unfinished dishonest => exact ⟨_, .thrown unfinished dishonest, Nat.le_refl _⟩

theorem deliver_first (react : Phase → Bytes → Phase × List Bytes) (phase : Phase) (m : Manager)
    (reply : Bytes) (requests replies : List Bytes) :
    Dialogue.step (roles react) ⟨phase, requests, m, reply :: replies⟩ .deliver =
      (⟨(react phase reply).1, requests ++ (react phase reply).2, m, replies⟩, true) :=
  rfl

/- Once it knows the missing chunks, the client reads over the other answer. -/
theorem deliver_late (i : UInt32) (later : List UInt32) (m : Manager) (bitmap : Bytes)
    (requests replies : List Bytes) :
    Dialogue.step (roles (react u)) ⟨.ack i later, requests, m,
        queryResponse u.fileId u.totalChunks bitmap :: replies⟩ .deliver =
      (⟨.ack i later, requests, m, replies⟩, true) := by
  rw [deliver_first, react, Upload.receive_late, List.append_nil]

theorem next_sent {m : Manager} {done : Finset Nat} {later : List Nat}
    (unfinished : Unfinished (u.announced valid) m done)
    (order : todo u.totalChunks.toNat done = later) :
    ∃ i rest, later = i :: rest ∧
      (u.sendChunk (later.map UInt32.ofNat), u.sendsChunk (later.map UInt32.ofNat)) =
        (.ack (UInt32.ofNat i) (rest.map UInt32.ofNat),
          [u.chunkPayload (UInt32.ofNat i) ((u.announced valid).slice (UInt32.ofNat i))]) := by
  obtain ⟨i, rest, shape⟩ := unfinished_todo unfinished
  change todo u.totalChunks.toNat done = i :: rest at shape
  have range : UInt32.ofNat i < u.totalChunks := (index_below (todo_next shape).1).2
  obtain ⟨waits, sent⟩ := Upload.sendChunk_eq valid range (rest.map UInt32.ofNat)
  rw [order] at shape
  refine ⟨i, rest, shape, ?_⟩
  rw [shape, List.map_cons, waits, sent]

theorem stage_deliver (stage : Stage valid c s n) :
    Onward valid c n (Dialogue.step (roles (react u)) s .deliver) := by
  cases stage with
  | opening ready fresh start => exact ⟨_, .opening ready fresh start, Nat.le_refl _⟩
  | @told m done bitmap front back left unfinished flawed marks second =>
    obtain ⟨i, rest, shape, sent⟩ := next_sent unfinished rfl
    have heard : u.receive .bitmap (Upload.binary (queryResponse u.fileId u.totalChunks bitmap)) =
        (u.sendChunk (u.missingChunks bitmap), u.sendsChunk (u.missingChunks bitmap)) :=
      Upload.receive_bitmap marks.1
    have few := todo_length u.totalChunks.toNat done
    rw [deliver_first, react, heard, Upload.missing_eq valid marks, sent]
    refine ⟨_, .sending unfinished shape (by rwa [shape] at flawed) second, ?_⟩
    rw [shape, List.length_cons] at few
    simp only [Bool.toNat_true]
    omega
  | sending unfinished order flawed second =>
    cases second with
    | asked => exact ⟨_, .sending unfinished order flawed .asked, Nat.le_refl _⟩
    | answered bitmap =>
      rw [deliver_late]
      exact ⟨_, .sending unfinished order flawed .read, Nat.le_refl _⟩
    | read => exact ⟨_, .sending unfinished order flawed .read, Nat.le_refl _⟩
  | @acknowledged m done i later back left unfinished order flawed second =>
    cases second with
    | answered bitmap =>
      rw [List.singleton_append, deliver_late]
      exact ⟨_, .acknowledged unfinished order flawed .read, Nat.le_refl _⟩
    | read =>
      obtain ⟨i', rest, shape, sent⟩ := next_sent unfinished order
      rw [List.nil_append, deliver_first, react, Upload.receive_ack, sent]
      refine ⟨_, .sending unfinished (order.trans shape) (by rwa [shape] at flawed) .read, ?_⟩
      rw [shape, List.length_cons]
      simp only [Bool.toNat_true]
      omega
  | finishing completed whole second =>
    cases second with
    | answered bitmap =>
      rw [List.cons_append, List.nil_append, deliver_late]
      exact ⟨_, .finishing completed whole .read, Nat.le_refl _⟩
    | read =>
      rw [List.nil_append, deliver_first, react, Upload.receive_ack]
      exact ⟨_, .finished completed whole, Nat.le_refl _⟩
  | finished completed whole =>
    rw [deliver_first, react, Upload.receive_finish]
    exact ⟨_, .ended completed whole, Nat.le_refl _⟩
  | ended completed whole => exact ⟨_, .ended completed whole, Nat.le_refl _⟩
  | refused unfinished dishonest second =>
    cases second with
    | answered bitmap =>
      rw [List.cons_append, List.nil_append, deliver_late]
      exact ⟨_, .refused unfinished dishonest .read, Nat.le_refl _⟩
    | read =>
      rw [List.nil_append, deliver_first, react, Upload.receive_error]
      exact ⟨_, .thrown unfinished dishonest, Nat.le_refl _⟩
  | @thrown m done replies unfinished dishonest =>
    -- nobody reads what comes behind the error
    cases replies with
    | nil => exact ⟨_, .thrown unfinished dishonest, Nat.le_refl _⟩
    | cons reply replies =>
      rw [deliver_first]
      exact ⟨_, .thrown unfinished dishonest, Nat.le_refl _⟩

theorem stage_step (stage : Stage valid c s n) {input : Dialogue.Input SysResults Call}
    (undisturbed : Undisturbed (u.announced valid) s input) :
    Onward valid c n (Dialogue.step (roles (react u)) s input) := by
  cases input with
  | serve sys => exact stage_serve stage undisturbed
  | deliver => exact stage_deliver stage
  | disturb call => exact ⟨n, stage_disturb stage undisturbed, Nat.le_refl _⟩

theorem stage_ready (stage : Stage valid c s n) : Ready (u.announced valid) s.server := by
  cases stage with
  | opening ready => exact ready
  | told unfinished => exact unfinished_ready unfinished
  | sending unfinished => exact unfinished_ready unfinished
  | acknowledged unfinished => exact unfinished_ready unfinished
  | finishing completed => exact completed_ready completed
  | finished completed => exact completed_ready completed
  | ended completed => exact completed_ready completed
  | refused unfinished => exact unfinished_ready unfinished
  | thrown unfinished => exact unfinished_ready unfinished

/-- The error that ends the upload came for a chunk with a wrong CRC; the session is still there. -/
def Rebuffed (valid : u.ValidParameters) (s : Conversation Phase) : Prop :=
  s.client = .thrown "server file protocol error" ∧ ¬ u.Honest ∧
    ∃ done, Unfinished (u.announced valid) s.server done

theorem stage_phase (stage : Stage valid c s n) :
    s.client.awaitsFrames = true ∧ (s.requests ≠ [] ∨ s.replies ≠ []) ∨
      s.client = .gotFinish ∧ Completed (u.announced valid) s.server ∧ ¬ c ∨ Rebuffed valid s := by
  cases stage with
  | opening => exact .inl ⟨rfl, .inl (List.cons_ne_nil _ _)⟩
  | told => exact .inl ⟨rfl, .inr (List.cons_ne_nil _ _)⟩
  | sending => exact .inl ⟨rfl, .inl (List.concat_ne_nil _ _)⟩
  | acknowledged => exact .inl ⟨rfl, .inr (List.concat_ne_nil _ _)⟩
  | finishing =>
    exact .inl ⟨rfl, .inr (List.append_ne_nil_of_right_ne_nil _ (List.cons_ne_nil _ _))⟩
  | finished => exact .inl ⟨rfl, .inr (List.cons_ne_nil _ _)⟩
  | ended completed whole => exact .inr (.inl ⟨rfl, completed, whole⟩)
  | refused =>
    exact .inl ⟨rfl, .inr (List.append_ne_nil_of_right_ne_nil _ (List.cons_ne_nil _ _))⟩
  | thrown unfinished dishonest => exact .inr (.inr ⟨rfl, dishonest, _, unfinished⟩)

end

/-- The echo of the text has arrived; nothing of the upload has reached the server. -/
def announcing (u : Upload) (echo : WsFrame) (m : Manager) : Conversation Phase :=
  let (phase, requests) := u.receive .text echo
  ⟨phase, requests, m, []⟩

theorem announcing_eq {u : Upload} {echo : WsFrame} (named : u.filePath ≠ [])
    (text : echo.opcode = 0x1) (m : Manager) :
    announcing u echo m = ⟨.bitmap, [u.startPayload, u.queryPayload], m, []⟩ := by
  have got : gotText [echo] = true := by
    simp [gotText, text]
  simp only [announcing, Upload.receive, Phase.body, waitLoop, Upload.afterLoop, Upload.sends, got,
    named, ↓reduceIte, ne_eq, not_false_eq_true, and_self]

/-- An upload of the command line client, to a server that has no session for it or one of the same
    parameters with some chunks missing, comes to its end where the parameters are valid, every read
    brings one frame, the system calls behind the upload succeed and nobody else touches it: the
    client waits with a message in flight, or has had its FILE_FINISH_ACK with the file stored, or
    has given up on a chunk that it sent with a wrong CRC. To a server without a session it comes to
    its FILE_FINISH_ACK only if there is no such chunk. No more than five messages and two for each
    chunk are taken, and at every moment the server is ready for the same upload to be begun
    again. -/
theorem cli_upload_completes {u : Upload} (valid : u.ValidParameters) (named : u.filePath ≠ [])
    {echo : WsFrame} (text : echo.opcode = 0x1) {m : Manager}
    (ready : Ready (u.announced valid) m) :
    ∀ inputs : List (Dialogue.Input SysResults Call),
      (∀ t ∈ Run.steps (Dialogue.step (roles (react u))) (announcing u echo m) inputs,
        Undisturbed (u.announced valid) t.before t.input) →
      let s := Run.final (Dialogue.step (roles (react u))) (announcing u echo m) inputs
      Dialogue.exchanged (roles (react u)) (announcing u echo m) inputs ≤ 2 * u.exactChunks + 5 ∧
        Ready (u.announced valid) s.server ∧
        (s.client.awaitsFrames = true ∧ (s.requests ≠ [] ∨ s.replies ≠ []) ∨
          s.client = .gotFinish ∧ Completed (u.announced valid) s.server ∧
            (Fresh (u.announced valid) m → u.Honest) ∨
          Rebuffed valid s) := by
  intro inputs undisturbed s
  obtain ⟨payload, sent, checked⟩ := Upload.start_checked valid
  have begins : Stage valid (Fresh (u.announced valid) m ∧ ¬ u.Honest) (announcing u echo m)
      (2 * u.totalChunks.toNat + 5) := by
    rw [announcing_eq named text, sent]
    exact .opening ready id checked
  obtain ⟨left, last, few⟩ := Dialogue.run_bounded (Stage valid _)
    (Undisturbed (u.announced valid)) (fun s n i stage undisturbed => stage_step stage undisturbed)
    begins undisturbed
  have phase := stage_phase last
  rw [not_and, not_not] at phase
  rw [← valid.totalChunks]
  exact ⟨by omega, stage_ready last, phase⟩

def fileOfTwo : Upload where
  filePath := [97]
  content := [1, 2]
  off_t_size := by decide
  divisible := defaultChunk_nonzero

theorem fileOfTwo_valid : fileOfTwo.ValidParameters :=
  fileOfTwo.validParameters_exact.mpr ⟨by decide, by decide +kernel⟩

def bothAnswered : List (Dialogue.Input SysResults Call) :=
  [.serve willing, .serve willing, .deliver, .deliver, .serve willing, .deliver, .deliver]

def playedOut :=
  Run.final (Dialogue.step (roles (react fileOfTwo)))
    (announcing fileOfTwo ⟨0x1, true, []⟩ (start .empty)) bothAnswered

theorem fileOfTwo_completes :
    playedOut.client = .gotFinish ∧
      Completed (fileOfTwo.announced fileOfTwo_valid) playedOut.server := by
  have ready : Ready (fileOfTwo.announced fileOfTwo_valid) (start .empty) := by
    refine ⟨start_sound .empty, .inl ?_⟩
    intro ex found
    contradiction
  have creates : Creates willing (replaced (start .empty)
      (fileOfTwo.announced fileOfTwo_valid).id).disk := by
    rw [replaced_start]
    exact ⟨⟨3, rfl, rfl⟩, rfl⟩
  have undisturbed := willing_undisturbed (f := react fileOfTwo)
    (u := fileOfTwo.announced fileOfTwo_valid)
    (s := announcing fileOfTwo ⟨0x1, true, []⟩ (start .empty)) bothAnswered
    (by simp [bothAnswered]) (Nat.le_refl 2) creates (by decide +kernel)
  have completes := (cli_upload_completes fileOfTwo_valid (by decide) rfl ready bothAnswered
    undisturbed).2.2
  have silent : playedOut.requests = [] ∧ playedOut.replies = [] := by decide +kernel
  rcases completes with ⟨-, flight⟩ | ⟨finished, completed, -⟩ | ⟨-, dishonest, -⟩
  · exact (flight.elim (fun some => some silent.1) fun some => some silent.2).elim
  · unfold playedOut
    exact ⟨finished, completed⟩
  · exact absurd (Upload.default_honest rfl) dishonest

/- With --corrupt-chunk 0 the error comes in place of the acknowledgement. -/
example : (Run.final (Dialogue.step (roles (react { fileOfTwo with corruptChunkIndex := 0 })))
    (announcing { fileOfTwo with corruptChunkIndex := 0 } ⟨0x1, true, []⟩ (start .empty))
      bothAnswered).client = .thrown "server file protocol error" := by decide +kernel

end MainClient
