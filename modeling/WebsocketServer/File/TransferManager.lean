import WebsocketServer.Library.FileSystem
import WebsocketServer.Library.Run
import WebsocketServer.File.Protocol

/- The session table of the upload server. What the kernel answers to a system call, and the
   clock, are inputs of every call; the effect of an answer is computed here. -/
namespace FileTransferManager

structure FileState where
  file_id : UInt64
  file_size : UInt64
  chunk_size : UInt32
  total_chunks : UInt32
  expected_crc32 : UInt32
  bitmap : Bytes
  received_count : UInt32
  fd : Option Nat
  temp_path : Bytes
  final_display_name : Bytes
  create_ts : UInt64
  last_update_ts : UInt64

structure Manager where
  g_states : AList fun _ : UInt64 => FileState
  disk : FileSystem Bytes

inductive ReadResult where
  | interrupted
  | failed
  | upTo (n : Nat)
  deriving DecidableEq

/-- openFd is the descriptor open returns. pwriteCount is none for -1, otherwise the number of
    bytes the kernel is ready to write. reads answers the first calls of read; later ones give
    everything that is left. -/
structure SysResults where
  now_seconds : UInt64
  openFd : Option Nat
  ftruncateOk : Bool
  pwriteCount : Option Nat
  lseekOk : Bool
  reads : List ReadResult
  renameOk : Bool
  unlinkOk : Bool

def bitmapGet (bm : Bytes) (idx : UInt32) : Bool :=
  (bm.getD (idx / 8).toNat 0 >>> (idx % 8).toUInt8) &&& 0x1 != 0

def bitmapSet (bm : Bytes) (idx : UInt32) : Bytes :=
  bm.set (idx / 8).toNat (bm.getD (idx / 8).toNat 0 ||| (1 <<< (idx % 8).toUInt8))

/-- The loop around read(fd, buf, 64 * 1024). -/
def readLoop : List ReadResult → UInt32 → Bytes → Except String UInt32
  | [], crc, rest => .ok (CRC32.update crc rest)
  | .interrupted :: results, crc, rest => readLoop results crc rest
  | .failed :: _, _, _ => .error "read failed for crc32"
  | .upTo n :: results, crc, rest =>
      if rest = [] then .ok crc
      else
        let n := min (max n 1) (64 * 1024)
        readLoop results (CRC32.update crc (rest.take n)) (rest.drop n)

def computeFdCrc32 (sys : SysResults) (disk : FileSystem Bytes) (fd : Option Nat) :
    Except String UInt32 :=
  match fd with
  | none => .error "invalid fd"
  | some fd =>
      match sys.lseekOk, disk.readFd fd with
      | true, some bytes => (readLoop sys.reads CRC32.reset bytes).map CRC32.finish
      | _, _ => .error "lseek failed"

def closeFd (disk : FileSystem Bytes) : Option Nat → FileSystem Bytes
  | none => disk
  | some fd => disk.close fd

/-- The kernel never hands out a descriptor that is in use. -/
def openTemp (sys : SysResults) (disk : FileSystem Bytes) (path : Bytes) :
    Option (Nat × FileSystem Bytes) :=
  match sys.openFd with
  | none => none
  | some fd => if (disk.fds fd).isSome then none else some (fd, disk.openTruncate path fd)

/-- A length that is negative as an off_t is refused. -/
def truncateTo (sys : SysResults) (disk : FileSystem Bytes) (fd : Nat) (length : Int64) :
    Option (FileSystem Bytes) :=
  if sys.ftruncateOk = false ∨ length < 0 then none
  else some (disk.ftruncate fd length.toInt.toNat)

/-- The number of bytes written, or none for an error; a negative offset is one. -/
def pwriteAt (sys : SysResults) (disk : FileSystem Bytes) (fd : Option Nat) (data : Bytes)
    (offset : Int64) : Option Nat × FileSystem Bytes :=
  match fd, sys.pwriteCount with
  | some fd, some n =>
      if offset < 0 then (none, disk)
      else (some (min n data.length), disk.pwrite fd (data.take n) offset.toInt.toNat)
  | _, _ => (none, disk)

def queryResponse (file_id : UInt64) (total_chunks : UInt32) (bitmap : Bytes) : Bytes :=
  MSG_FILE_QUERY_RESPONSE :: writeU64BE file_id ++ writeU32BE total_chunks ++
    writeU32BE (UInt32.ofNat bitmap.length) ++ bitmap

def chunkAck (file_id : UInt64) (chunk_index : UInt32) (status : UInt8) : Bytes :=
  MSG_FILE_CHUNK_ACK :: writeU64BE file_id ++ writeU32BE chunk_index ++ [status]

def finishAck (file_id : UInt64) (ok : UInt8) : Bytes :=
  MSG_FILE_FINISH_ACK :: writeU64BE file_id ++ [ok]

structure StartRequest where
  file_id : UInt64
  file_size : UInt64
  chunk_size : UInt32
  total_chunks : UInt32
  expected_crc32 : UInt32
  raw_filename : Bytes

def readFilename (p : Bytes) : Except Bytes Bytes :=
  if p.length > 28 then
    if p.length < 30 then
      .error (mkError .INVALID_ARGUMENT "FILE_START filename header incomplete")
    else
      let fn_len := (readU16BE (p.drop 28)).toNat
      if fn_len > 512 then .error (mkError .INVALID_ARGUMENT "FILE_START filename too long")
      else if p.length < 30 + fn_len then
        .error (mkError .INVALID_ARGUMENT "FILE_START filename truncated")
      else .ok ((p.drop 30).take fn_len)
  else .ok []

def checkStart (p : Bytes) : Except Bytes StartRequest :=
  if p.length < 8 + 8 + 4 + 4 + 4 then
    .error (mkError .INVALID_ARGUMENT "FILE_START payload too small")
  else
    match readFilename p with
    | .error reply => .error reply
    | .ok raw_filename =>
        let chunk_size := readU32BE (p.drop 16)
        let total_chunks := readU32BE (p.drop 20)
        if total_chunks = 0 ∨ chunk_size = 0 then
          .error (mkError .INVALID_ARGUMENT "invalid chunk params")
        else
          .ok { file_id := readU64BE p, file_size := readU64BE (p.drop 8), chunk_size, total_chunks,
                expected_crc32 := readU32BE (p.drop 24), raw_filename }

def StartRequest.resumes (r : StartRequest) (ex : FileState) : Bool :=
  ex.file_size == r.file_size && ex.chunk_size == r.chunk_size &&
    ex.total_chunks == r.total_chunks && ex.expected_crc32 == r.expected_crc32

def touch (m : Manager) (file_id : UInt64) (st : FileState) (now_seconds : UInt64) : Manager :=
  { m with g_states := m.g_states.insert file_id { st with last_update_ts := now_seconds } }

def dropSession (m : Manager) (file_id : UInt64) (st : FileState) : Manager :=
  { g_states := m.g_states.erase file_id, disk := closeFd m.disk st.fd }

def newSession (r : StartRequest) (fd : Nat) (now_seconds : UInt64) : FileState where
  file_id := r.file_id
  file_size := r.file_size
  chunk_size := r.chunk_size
  total_chunks := r.total_chunks
  expected_crc32 := r.expected_crc32
  bitmap := List.replicate ((r.total_chunks.toNat + 7) / 8) 0
  received_count := 0
  fd := some fd
  temp_path := makeTempPath r.file_id
  final_display_name := sanitizeOriginalFilename r.raw_filename
  create_ts := now_seconds
  last_update_ts := now_seconds

def createSession (sys : SysResults) (r : StartRequest) (m : Manager) : Manager × List Bytes :=
  match openTemp sys m.disk (makeTempPath r.file_id) with
  | none => (m, [mkError .INTERNAL_ERROR "open temp file failed"])
  | some (fd, disk) =>
      match truncateTo sys disk fd r.file_size.toInt64 with
      | none => ({ m with disk := disk.close fd }, [mkError .INTERNAL_ERROR "ftruncate failed"])
      | some disk =>
          let st := newSession r fd sys.now_seconds
          ({ g_states := m.g_states.insert r.file_id st, disk },
            [queryResponse r.file_id r.total_chunks st.bitmap])

def handleFileStart (sys : SysResults) (p : Bytes) (m : Manager) : Manager × List Bytes :=
  match checkStart p with
  | .error reply => (m, [reply])
  | .ok r =>
      match m.g_states.lookup r.file_id with
      | none => createSession sys r m
      | some ex =>
          if r.resumes ex then
            (touch m r.file_id ex sys.now_seconds,
              [queryResponse r.file_id r.total_chunks ex.bitmap])
          else createSession sys r (dropSession m r.file_id ex)

structure QueryRequest where
  file_id : UInt64
  st : FileState

def checkQuery (m : Manager) (p : Bytes) : Except Bytes QueryRequest :=
  if p.length < 8 then .error (mkError .INVALID_ARGUMENT "FILE_QUERY payload too small")
  else
    let file_id := readU64BE p
    match m.g_states.lookup file_id with
    | none => .error (mkError .FILE_STATE_NOT_FOUND "file state not found")
    | some st => .ok { file_id, st }

def handleFileQuery (sys : SysResults) (p : Bytes) (m : Manager) : Manager × List Bytes :=
  match checkQuery m p with
  | .error reply => (m, [reply])
  | .ok r =>
      (touch m r.file_id r.st sys.now_seconds,
        [queryResponse r.file_id r.st.total_chunks r.st.bitmap])

structure ChunkRequest where
  file_id : UInt64
  chunk_index : UInt32
  chunkData : Bytes
  st : FileState

def checkChunk (m : Manager) (p : Bytes) : Except (List Bytes) ChunkRequest :=
  if p.length < 8 + 4 + 4 then .error [mkError .INVALID_ARGUMENT "FILE_CHUNK payload too small"]
  else
    let file_id := readU64BE p
    let chunk_index := readU32BE (p.drop 8)
    let chunk_crc32 := readU32BE (p.drop 12)
    match m.g_states.lookup file_id with
    | none => .error [mkError .FILE_STATE_NOT_FOUND "file state not found"]
    | some st =>
        let chunkData := p.drop 16
        if chunk_index ≥ st.total_chunks then
          .error [mkError .FILE_CHUNK_OUT_OF_RANGE "chunk_index out of range"]
        else if chunkData.length = 0 then .error [mkError .INVALID_ARGUMENT "empty chunk"]
        else if chunk_index + 1 ≠ st.total_chunks ∧ chunkData.length ≠ st.chunk_size.toNat then
          .error [mkError .PROTOCOL_VIOLATION "chunk size mismatch"]
        else if CRC32.checksum chunkData ≠ chunk_crc32 then
          .error [mkError .FILE_CHUNK_CRC_MISMATCH "chunk crc32 mismatch",
            chunkAck file_id chunk_index 0]
        else .ok { file_id, chunk_index, chunkData, st }

/-- Multiplication of off_t values wraps. -/
def chunkOffset (chunk_index chunk_size : UInt32) : Int64 :=
  chunk_index.toUInt64.toInt64 * chunk_size.toUInt64.toInt64

def markReceived (st : FileState) (chunk_index : UInt32) (now_seconds : UInt64) : FileState :=
  { st with
    bitmap := bitmapSet st.bitmap chunk_index
    received_count := st.received_count + 1
    last_update_ts := now_seconds }

/-- The whole-file check behind the last chunk. The result of rename is not looked at. -/
def finishUpload (sys : SysResults) (file_id : UInt64) (st : FileState) (m : Manager) :
    Manager × List Bytes :=
  match computeFdCrc32 sys m.disk st.fd with
  | .error what => (m, [mkError .INTERNAL_ERROR what])
  | .ok fileCrc =>
      let disk := closeFd m.disk st.fd
      let g_states := m.g_states.erase file_id
      if fileCrc = st.expected_crc32 then
        let finalPath := makeFinalPath st.file_id st.final_display_name
        ({ g_states, disk := if sys.renameOk then disk.rename st.temp_path finalPath else disk },
          [finishAck file_id 1])
      else
        ({ g_states, disk := if sys.unlinkOk then disk.unlink st.temp_path else disk },
          [finishAck file_id 0])

/-- The session and the table behind an accepted chunk; a chunk that came before is not counted
   again. -/
def chunkState (sys : SysResults) (r : ChunkRequest) : FileState :=
  if bitmapGet r.st.bitmap r.chunk_index then r.st
  else markReceived r.st r.chunk_index sys.now_seconds

def recordChunk (sys : SysResults) (r : ChunkRequest) (m : Manager) : Manager :=
  { m with
    g_states :=
      if bitmapGet r.st.bitmap r.chunk_index then m.g_states
      else m.g_states.insert r.file_id (chunkState sys r) }

def storeChunk (sys : SysResults) (r : ChunkRequest) (m : Manager) : Manager × List Bytes :=
  match pwriteAt sys m.disk r.st.fd r.chunkData (chunkOffset r.chunk_index r.st.chunk_size) with
  | (written, disk) =>
      if written ≠ some r.chunkData.length then
        ({ m with disk }, [mkError .INTERNAL_ERROR "pwrite failed"])
      else
        let already := bitmapGet r.st.bitmap r.chunk_index
        let st := chunkState sys r
        let m := recordChunk sys r { m with disk }
        let ack := chunkAck r.file_id r.chunk_index (if already then 0 else 1)
        if st.received_count = st.total_chunks then
          let (m, replies) := finishUpload sys r.file_id st m
          (m, ack :: replies)
        else (m, [ack])

def handleFileChunk (sys : SysResults) (p : Bytes) (m : Manager) : Manager × List Bytes :=
  match checkChunk m p with
  | .error replies => (m, replies)
  | .ok r => storeChunk sys r m

def handleClientMessage (sys : SysResults) (payload : Bytes) (m : Manager) :
    Manager × List Bytes :=
  match payload with
  | [] => (m, [])
  | msgType :: p =>
      if msgType = MSG_FILE_START then handleFileStart sys p m
      else if msgType = MSG_FILE_QUERY then handleFileQuery sys p m
      else if msgType = MSG_FILE_CHUNK then handleFileChunk sys p m
      else (m, [mkError .UNSUPPORTED_OPCODE "unknown msgType"])

/-- What std::sort may do: it orders by last_update_ts and leaves ties in any order. -/
structure OldestFirst where
  sort : List (UInt64 × UInt64) → List (UInt64 × UInt64)
  permutes : ∀ l, (sort l).Perm l
  ordered : ∀ l, (sort l).Pairwise fun a b => a.2 ≤ b.2

def olderFirst (a b : UInt64 × UInt64) : Bool := decide (a.2 ≤ b.2)

def byLastUpdate : OldestFirst where
  sort := fun l => l.mergeSort olderFirst
  permutes := fun l => List.mergeSort_perm l olderFirst
  ordered := by
    intro l
    have trans : ∀ a b c, olderFirst a b → olderFirst b c → olderFirst a c := by
      intro a b c
      simp only [olderFirst, decide_eq_true_eq]
      exact UInt64.le_trans
    have total : ∀ a b, olderFirst a b || olderFirst b a := by
      intro a b
      simp only [olderFirst, Bool.or_eq_true, decide_eq_true_eq]
      exact UInt64.le_total a.2 b.2
    simpa only [olderFirst, decide_eq_true_eq] using List.pairwise_mergeSort trans total l

/-- A system call of cleanupSessions, which does not look at what unlink returns. -/
inductive CleanupCall where
  | close (fd : Nat)
  | unlink (path : Bytes) (ok : Bool)
  deriving DecidableEq

def CleanupCall.apply (disk : FileSystem Bytes) : CleanupCall → FileSystem Bytes
  | .close fd => disk.close fd
  | .unlink path ok => if ok then disk.unlink path else disk

/-- The body of both loops of cleanupSessions, with the calls it makes. -/
def removal (unlinkOk : UInt64 → Bool) (m : Manager) (file_id : UInt64) :
    Manager × List CleanupCall :=
  match m.g_states.lookup file_id with
  | none => (m, [])
  | some st =>
      let calls := (st.fd.map .close).toList ++ [.unlink st.temp_path (unlinkOk file_id)]
      ({ g_states := m.g_states.erase file_id, disk := calls.foldl CleanupCall.apply m.disk },
        calls)

def removeSession (unlinkOk : UInt64 → Bool) (m : Manager) (file_id : UInt64) : Manager :=
  (removal unlinkOk m file_id).1

def removals (unlinkOk : UInt64 → Bool) (m : Manager) (ids : List UInt64) :
    Manager × List CleanupCall :=
  (Run.final (removal unlinkOk) m ids, Run.trace (removal unlinkOk) m ids)

def expiredIds (now_seconds ttl_seconds : UInt64) (m : Manager) : List UInt64 :=
  (m.g_states.entries.filter fun kv =>
    now_seconds > kv.2.last_update_ts && now_seconds - kv.2.last_update_ts > ttl_seconds).map (·.1)

def evictedIds (order : OldestFirst) (max_sessions : Nat) (m : Manager) : List UInt64 :=
  let size := m.g_states.entries.length
  if size ≤ max_sessions then []
  else
    let sortable := order.sort (m.g_states.entries.map fun kv => (kv.1, kv.2.last_update_ts))
    (sortable.take (size - max_sessions)).map (·.1)

def cleanup (order : OldestFirst) (unlinkOk : UInt64 → Bool) (now_seconds ttl_seconds : UInt64)
    (max_sessions : Nat) (m : Manager) : Manager × List CleanupCall :=
  let (m, expired) := removals unlinkOk m (expiredIds now_seconds ttl_seconds m)
  let (m, evicted) := removals unlinkOk m (evictedIds order max_sessions m)
  (m, expired ++ evicted)

def cleanupSessions (order : OldestFirst) (unlinkOk : UInt64 → Bool)
    (now_seconds ttl_seconds : UInt64) (max_sessions : Nat) (m : Manager) : Manager :=
  (cleanup order unlinkOk now_seconds ttl_seconds max_sessions m).1

def cleanupCalls (order : OldestFirst) (unlinkOk : UInt64 → Bool)
    (now_seconds ttl_seconds : UInt64) (max_sessions : Nat) (m : Manager) : List CleanupCall :=
  (cleanup order unlinkOk now_seconds ttl_seconds max_sessions m).2

inductive Call where
  | message (sys : SysResults) (payload : Bytes)
  | cleanup (order : OldestFirst) (unlinkOk : UInt64 → Bool) (now_seconds ttl_seconds : UInt64)
      (max_sessions : Nat)

def perform (m : Manager) : Call → Manager × List Bytes
  | .message sys payload => handleClientMessage sys payload m
  | .cleanup order unlinkOk now_seconds ttl_seconds max_sessions =>
      (cleanupSessions order unlinkOk now_seconds ttl_seconds max_sessions m, [])

def start (disk : FileSystem Bytes) : Manager := ⟨∅, disk⟩

end FileTransferManager
