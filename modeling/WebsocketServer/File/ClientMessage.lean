import WebsocketServer.File.TransferManager

/- What a client message says, apart from what the server does about it: handleClientMessage
   decodes the fields of a message and then serves them. -/
namespace FileTransferManager

structure ChunkFields where
  file_id : UInt64
  chunk_index : UInt32
  chunk_crc32 : UInt32
  chunkData : Bytes

inductive ClientMessage where
  | start (r : StartRequest)
  | query (file_id : UInt64)
  | chunk (c : ChunkFields)

def decodeStart (p : Bytes) : Except Bytes StartRequest :=
  if p.length < 8 + 8 + 4 + 4 + 4 then
    .error (mkError .INVALID_ARGUMENT "FILE_START payload too small")
  else
    match readFilename p with
    | .error reply => .error reply
    | .ok raw_filename =>
        .ok { file_id := readU64BE p, file_size := readU64BE (p.drop 8)
              chunk_size := readU32BE (p.drop 16), total_chunks := readU32BE (p.drop 20)
              expected_crc32 := readU32BE (p.drop 24), raw_filename }

def decodeQuery (p : Bytes) : Except Bytes UInt64 :=
  if p.length < 8 then .error (mkError .INVALID_ARGUMENT "FILE_QUERY payload too small")
  else .ok (readU64BE p)

def decodeChunk (p : Bytes) : Except Bytes ChunkFields :=
  if p.length < 8 + 4 + 4 then .error (mkError .INVALID_ARGUMENT "FILE_CHUNK payload too small")
  else
    .ok { file_id := readU64BE p, chunk_index := readU32BE (p.drop 8)
          chunk_crc32 := readU32BE (p.drop 12), chunkData := p.drop 16 }

def decode (msgType : UInt8) (p : Bytes) : Except Bytes ClientMessage :=
  if msgType = MSG_FILE_START then (decodeStart p).map .start
  else if msgType = MSG_FILE_QUERY then (decodeQuery p).map .query
  else if msgType = MSG_FILE_CHUNK then (decodeChunk p).map .chunk
  else .error (mkError .UNSUPPORTED_OPCODE "unknown msgType")

def checkParams (r : StartRequest) : Except Bytes StartRequest :=
  if r.total_chunks = 0 ∨ r.chunk_size = 0 then
    .error (mkError .INVALID_ARGUMENT "invalid chunk params")
  else .ok r

def findState (m : Manager) (file_id : UInt64) : Except Bytes QueryRequest :=
  match m.g_states.lookup file_id with
  | none => .error (mkError .FILE_STATE_NOT_FOUND "file state not found")
  | some st => .ok { file_id, st }

def checkFields (m : Manager) (c : ChunkFields) : Except (List Bytes) ChunkRequest :=
  match m.g_states.lookup c.file_id with
  | none => .error [mkError .FILE_STATE_NOT_FOUND "file state not found"]
  | some st =>
      if c.chunk_index ≥ st.total_chunks then
        .error [mkError .FILE_CHUNK_OUT_OF_RANGE "chunk_index out of range"]
      else if c.chunkData.length = 0 then .error [mkError .INVALID_ARGUMENT "empty chunk"]
      else if c.chunk_index + 1 ≠ st.total_chunks ∧ c.chunkData.length ≠ st.chunk_size.toNat then
        .error [mkError .PROTOCOL_VIOLATION "chunk size mismatch"]
      else if CRC32.checksum c.chunkData ≠ c.chunk_crc32 then
        .error [mkError .FILE_CHUNK_CRC_MISMATCH "chunk crc32 mismatch",
          chunkAck c.file_id c.chunk_index 0]
      else .ok { file_id := c.file_id, chunk_index := c.chunk_index, chunkData := c.chunkData, st }

def serveStart (sys : SysResults) (m : Manager) (r : StartRequest) : Manager × List Bytes :=
  match checkParams r with
  | .error reply => (m, [reply])
  | .ok r =>
      match m.g_states.lookup r.file_id with
      | none => createSession sys r m
      | some ex =>
          if r.resumes ex then
            (touch m r.file_id ex sys.now_seconds,
              [queryResponse r.file_id r.total_chunks ex.bitmap])
          else createSession sys r (dropSession m r.file_id ex)

def serveQuery (sys : SysResults) (m : Manager) (file_id : UInt64) : Manager × List Bytes :=
  match findState m file_id with
  | .error reply => (m, [reply])
  | .ok r =>
      (touch m r.file_id r.st sys.now_seconds,
        [queryResponse r.file_id r.st.total_chunks r.st.bitmap])

def serveChunk (sys : SysResults) (m : Manager) (c : ChunkFields) : Manager × List Bytes :=
  match checkFields m c with
  | .error replies => (m, replies)
  | .ok r => storeChunk sys r m

def serve (sys : SysResults) (m : Manager) : ClientMessage → Manager × List Bytes
  | .start r => serveStart sys m r
  | .query file_id => serveQuery sys m file_id
  | .chunk c => serveChunk sys m c

/-- A message that does not decode is answered by an error alone. -/
def answer (sys : SysResults) (m : Manager) : Except Bytes ClientMessage → Manager × List Bytes
  | .error reply => (m, [reply])
  | .ok message => serve sys m message

theorem checkStart_decodes (p : Bytes) : checkStart p = (decodeStart p).bind checkParams := by
  unfold checkStart decodeStart
  split
  · rfl
  · cases readFilename p with
    | error reply => rfl
    | ok raw_filename => rfl

theorem checkQuery_decodes (m : Manager) (p : Bytes) :
    checkQuery m p = (decodeQuery p).bind (findState m) := by
  unfold checkQuery decodeQuery
  split
  · rfl
  · rfl

theorem checkChunk_decodes (m : Manager) (p : Bytes) :
    checkChunk m p = ((decodeChunk p).mapError ([·])).bind (checkFields m) := by
  unfold checkChunk decodeChunk
  split
  · rfl
  · rfl

section
variable {sys : SysResults} {m : Manager} {p : Bytes}

theorem handleFileStart_decodes :
    handleFileStart sys p m = answer sys m ((decodeStart p).map .start) := by
  rw [handleFileStart, checkStart_decodes]
  cases decodeStart p with
  | error reply => rfl
  | ok r => rfl

theorem handleFileQuery_decodes :
    handleFileQuery sys p m = answer sys m ((decodeQuery p).map .query) := by
  rw [handleFileQuery, checkQuery_decodes]
  cases decodeQuery p with
  | error reply => rfl
  | ok file_id => rfl

theorem handleFileChunk_decodes :
    handleFileChunk sys p m = answer sys m ((decodeChunk p).map .chunk) := by
  rw [handleFileChunk, checkChunk_decodes]
  cases decodeChunk p with
  | error reply => rfl
  | ok c => rfl

/- The server looks at the bytes of a message only to decode it. -/
theorem handleClientMessage_decodes (msgType : UInt8) :
    handleClientMessage sys (msgType :: p) m = answer sys m (decode msgType p) := by
  simp only [handleClientMessage, decode, handleFileStart_decodes, handleFileQuery_decodes,
    handleFileChunk_decodes]
  split_ifs <;> rfl

end

/-- A payload carries a message: its bytes decode to it, and handleClientMessage does with them
    what it does about the message. -/
def DecodesTo (payload : Bytes) (message : ClientMessage) : Prop :=
  ∃ msgType p, payload = msgType :: p ∧ decode msgType p = .ok message ∧
    ∀ sys m, handleClientMessage sys payload m = serve sys m message

theorem decodesTo_of_decode {msgType : UInt8} {p : Bytes} {message : ClientMessage}
    (decoded : decode msgType p = .ok message) : DecodesTo (msgType :: p) message := by
  refine ⟨msgType, p, rfl, decoded, ?_⟩
  intro sys m
  rw [handleClientMessage_decodes, decoded]
  rfl

theorem decodeStart_fields (r : StartRequest) (short : r.raw_filename.length ≤ 512) :
    decodeStart (writeU64BE r.file_id ++ (writeU64BE r.file_size ++ (writeU32BE r.chunk_size ++
      (writeU32BE r.total_chunks ++ (writeU32BE r.expected_crc32 ++
        (writeU16BE (UInt16.ofNat r.raw_filename.length) ++ r.raw_filename)))))) = .ok r := by
  have word : (UInt16.ofNat r.raw_filename.length).toNat = r.raw_filename.length := by
    rw [UInt16.toNat_ofNat']
    exact Nat.mod_eq_of_lt (by omega)
  generalize at0 : writeU64BE r.file_id ++ _ = p
  have at8 := congrArg (List.drop 8) at0
  rw [List.drop_left' (length_writeU64BE _)] at at8
  have at16 := congrArg (List.drop 8) at8
  rw [List.drop_drop, List.drop_left' (length_writeU64BE _)] at at16
  have at20 := congrArg (List.drop 4) at16
  rw [List.drop_drop, List.drop_left' (length_writeU32BE _)] at at20
  have at24 := congrArg (List.drop 4) at20
  rw [List.drop_drop, List.drop_left' (length_writeU32BE _)] at at24
  have at28 := congrArg (List.drop 4) at24
  rw [List.drop_drop, List.drop_left' (length_writeU32BE _)] at at28
  have at30 := congrArg (List.drop 2) at28
  rw [List.drop_drop, List.drop_left' (length_writeU16BE _)] at at30
  simp only [Nat.reduceAdd] at at8 at16 at20 at24 at28 at30
  have length : p.length = 30 + r.raw_filename.length := by
    rw [← at0]
    simp only [List.length_append, length_writeU64BE, length_writeU32BE, length_writeU16BE]
    omega
  have filename : readFilename p = .ok r.raw_filename := by
    unfold readFilename
    rw [if_pos (by omega), if_neg (by omega), ← at28, readU16BE_writeU16BE, word, ← at30]
    simp only
    rw [if_neg (by omega), if_neg (by omega), List.take_length]
  unfold decodeStart
  rw [if_neg (by omega), filename, ← at8, ← at16, ← at20, ← at24, ← at0]
  simp only [readU64BE_writeU64BE, readU32BE_writeU32BE]

theorem decodeQuery_fields (file_id : UInt64) : decodeQuery (writeU64BE file_id) = .ok file_id := by
  have read := readU64BE_writeU64BE file_id []
  rw [List.append_nil] at read
  rw [decodeQuery, length_writeU64BE, if_neg (by decide), read]

theorem decodeChunk_fields (c : ChunkFields) :
    decodeChunk (writeU64BE c.file_id ++ (writeU32BE c.chunk_index ++
      (writeU32BE c.chunk_crc32 ++ c.chunkData))) = .ok c := by
  generalize at0 : writeU64BE c.file_id ++ _ = p
  have at8 := congrArg (List.drop 8) at0
  rw [List.drop_left' (length_writeU64BE _)] at at8
  have at12 := congrArg (List.drop 4) at8
  rw [List.drop_drop, List.drop_left' (length_writeU32BE _)] at at12
  have at16 := congrArg (List.drop 4) at12
  rw [List.drop_drop, List.drop_left' (length_writeU32BE _)] at at16
  simp only [Nat.reduceAdd] at at12 at16
  have length : p.length = 16 + c.chunkData.length := by
    rw [← at0]
    simp only [List.length_append, length_writeU64BE, length_writeU32BE]
    omega
  rw [decodeChunk, if_neg (by omega), ← at8, ← at12, ← at16, ← at0]
  simp only [readU64BE_writeU64BE, readU32BE_writeU32BE]

end FileTransferManager
