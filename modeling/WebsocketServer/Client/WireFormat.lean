import WebsocketServer.Client.PayloadSizes
import WebsocketServer.Client.WaitLoops
import WebsocketServer.Client.WebCodec

/- The three codecs agree: what either client encodes the server decodes, and what the server
   encodes both clients decode. -/
namespace MainClient
open FileTransferManager WebSocketCodec

def queryMessage (fileId : UInt64) : Bytes := MSG_FILE_QUERY :: writeU64BE fileId

/-- A FILE_CHUNK of the client with any CRC; the one it sends may be corrupted on purpose. -/
def chunkMessage (fileId : UInt64) (chunkIndex chunkCrc : UInt32) (data : Bytes) : Bytes :=
  MSG_FILE_CHUNK :: writeU64BE fileId ++ writeU32BE chunkIndex ++ writeU32BE chunkCrc ++ data

def parseChunkAck (payload : Bytes) : Option (UInt64 × UInt32) :=
  match payload with
  | [] => none
  | msgType :: a =>
      if msgType ≠ MSG_FILE_CHUNK_ACK then none
      else if payload.length < 1 + 8 + 4 + 1 then none
      else some (readU64BE a, readU32BE (a.drop 8))

theorem startPayload_general (u : Upload) :
    u.startPayload = startPayload u.fileId u.fileSize u.chunkSize u.totalChunks u.computeFileCrc32
      (fileBasename u.filePath) := rfl

theorem queryPayload_general (u : Upload) : u.queryPayload = queryMessage u.fileId := rfl

theorem chunkPayload_general (u : Upload) (chunkIndex : UInt32) (data : Bytes) :
    ∃ chunkCrc, u.chunkPayload chunkIndex data =
      chunkMessage u.fileId chunkIndex chunkCrc data := ⟨_, rfl⟩

theorem ackFrame_breaks {chunkIndex : UInt32} {f : WsFrame} :
    ackFrame chunkIndex f = .breaks ↔
      f.opcode = 0x2 ∧ ∃ ackFileId, parseChunkAck f.payload = some (ackFileId, chunkIndex) := by
  unfold ackFrame examineBinary
  by_cases binary : f.opcode = 0x2
  · rw [if_neg (not_not.mpr binary)]
    cases shape : f.payload with
    | nil => simp [parseChunkAck]
    | cons msgType a =>
      by_cases ack : msgType = MSG_FILE_CHUNK_ACK
      · subst ack
        have regular : MSG_FILE_CHUNK_ACK ≠ MSG_FILE_ERROR := by decide
        simp only [regular, false_and, if_false, parseChunkAck, ne_eq, not_true_eq_false, binary,
          true_and]
        split
        · simp
        · simp only [Nat.reduceAdd, List.drop_succ_cons]
          split <;> simp_all
      · simp only [parseChunkAck, ack, ne_eq, not_false_eq_true, if_true]
        split <;> simp
  · simp [binary]

end MainClient

namespace FileTransferManager

theorem startPayload_decodes (r : StartRequest) (base : Bytes)
    (cut : r.raw_filename = base.take 512) :
    DecodesTo (startPayload r.file_id r.file_size r.chunk_size r.total_chunks r.expected_crc32 base)
      (.start r) := by
  have fields := decodeStart_fields r (by rw [cut, List.length_take]; omega)
  rw [cut] at fields
  simp only [startPayload, List.cons_append, List.append_assoc]
  apply decodesTo_of_decode
  rw [decode, if_pos rfl, fields]
  rfl

theorem queryMessage_decodes (file_id : UInt64) :
    DecodesTo (MainClient.queryMessage file_id) (.query file_id) := by
  apply decodesTo_of_decode
  rw [decode, if_neg (by decide), if_pos rfl, decodeQuery_fields]
  rfl

theorem chunkMessage_decodes (c : ChunkFields) :
    DecodesTo (MainClient.chunkMessage c.file_id c.chunk_index c.chunk_crc32 c.chunkData)
      (.chunk c) := by
  have fields := decodeChunk_fields c
  simp only [MainClient.chunkMessage, List.cons_append, List.append_assoc]
  apply decodesTo_of_decode
  rw [decode, if_neg (by decide), if_neg (by decide), if_pos rfl, fields]
  rfl

theorem chunkAck_decoded (file_id : UInt64) (chunk_index : UInt32) (status : UInt8) :
    MainClient.parseChunkAck (chunkAck file_id chunk_index status) = some (file_id, chunk_index) ∧
      WebPage.Codec.ackIdx (chunkAck file_id chunk_index status) =
        some (chunk_index.toNat : Int) := by
  have at9 : (chunkAck file_id chunk_index status).drop 9 = writeU32BE chunk_index ++ [status] := by
    simp only [chunkAck, List.cons_append, List.append_assoc, List.drop_succ_cons]
    exact List.drop_left' (length_writeU64BE file_id)
  have length : (chunkAck file_id chunk_index status).length = 14 := by
    simp only [chunkAck, List.length_append, List.length_cons, List.length_nil, length_writeU64BE,
      length_writeU32BE]
  constructor
  · have shape : chunkAck file_id chunk_index status =
        MSG_FILE_CHUNK_ACK :: (writeU64BE file_id ++ (writeU32BE chunk_index ++ [status])) := by
      simp only [chunkAck, List.cons_append, List.append_assoc]
    rw [shape] at at9 length ⊢
    rw [MainClient.parseChunkAck, if_neg (not_not.mpr rfl), if_neg (by omega),
      readU64BE_writeU64BE]
    rw [List.drop_succ_cons] at at9
    rw [at9, readU32BE_writeU32BE]
  · have first : JavaScript.byteAt (chunkAck file_id chunk_index status) 0 =
        MSG_FILE_CHUNK_ACK.toNat := rfl
    rw [WebPage.Codec.ackIdx, if_pos ⟨first, by omega⟩, WebPage.Codec.readU32BE_eq (by omega), at9,
      readU32BE_writeU32BE]

/-- Both clients take this number of chunks and this bitmap out of a reply, and its file id is
    where the page's reader looks for it. -/
structure ResponseDecodes (reply : Bytes) (file_id : UInt64) (total_chunks : UInt32)
    (bitmap : Bytes) : Prop where
  cli : MainClient.parseQueryResponse reply = some (total_chunks, bitmap)
  web : WebPage.Codec.parseQueryResponse reply = some ((total_chunks.toNat : Int), bitmap)
  id : WebPage.Codec.readU64BE reply 1 = some file_id.toNat

theorem queryResponse_decodes (file_id : UInt64) {total_chunks : UInt32} {bitmap : Bytes}
    (size : bitmap.length = (total_chunks.toNat + 7) / 8) :
    ResponseDecodes (queryResponse file_id total_chunks bitmap) file_id total_chunks bitmap := by
  obtain ⟨at9, at13, at17⟩ := queryResponse_fields file_id total_chunks bitmap
  have length := length_queryResponse file_id total_chunks bitmap
  have word := total_chunks.toNat_lt
  have bitmapLen : (UInt32.ofNat bitmap.length).toNat = bitmap.length := by
    rw [UInt32.toNat_ofNat']
    exact Nat.mod_eq_of_lt (by omega)
  refine ⟨(response_decoded file_id size).1, ?_, ?_⟩
  · unfold WebPage.Codec.parseQueryResponse
    rw [if_neg (by omega), WebPage.Codec.readU32BE_eq (by omega),
      WebPage.Codec.readU32BE_eq (by omega), at9, at13, readU32BE_writeU32BE, readU32BE_writeU32BE,
      bitmapLen]
    simp only [Nat.reduceAdd, Int.reduceAdd]
    rw [if_neg (by omega), JavaScript.subarray, List.take_of_length_le (by omega), at17]
  · have id : ((queryResponse file_id total_chunks bitmap).drop 1).take 8 = writeU64BE file_id := by
      simp only [queryResponse, List.cons_append, List.append_assoc, List.drop_succ_cons,
        List.drop_zero]
      exact List.take_left' (length_writeU64BE file_id)
    rw [WebPage.Codec.readU64BE_eq (by omega), id, writeU64BE,
      BigEndian.value_digits file_id.toNat_lt]

/-- Whatever the calls before: a FILE_QUERY_RESPONSE tells both clients the id, the number of
    chunks and the bitmap of the session it is about. -/
theorem responses_decode {disk : FileSystem Bytes} {calls : List Call} {sys : SysResults}
    {payload reply : Bytes}
    (mem : reply ∈ (handleClientMessage sys payload (Run.final perform (start disk) calls)).2)
    (response : reply.head? = some MSG_FILE_QUERY_RESPONSE) :
    ∃ id st, (handleClientMessage sys payload
        (Run.final perform (start disk) calls)).1.g_states.lookup id = some st ∧
      reply = queryResponse id st.total_chunks st.bitmap ∧
      ResponseDecodes reply id st.total_chunks st.bitmap := by
  have sound := reachable_sound ⟨start disk, calls, ⟨disk, rfl⟩, rfl⟩
  obtain ⟨st, found, rfl⟩ := response_session mem response
  have session := (handleClientMessage_effect sys payload sound).1 _ st found
  exact ⟨_, st, found, rfl, queryResponse_decodes _ session.bitmap⟩

/-- Every 64-bit id and size and every 32-bit chunk size, chunk count, CRC and index, every file
    name and every chunk: both clients' FILE_START, FILE_QUERY and FILE_CHUNK carry these values
    to handleClientMessage, and the server's replies carry its values to both clients. The page
    holds a 32-bit number as the JavaScript that computes it leaves it: totalChunks signed, the
    others not. -/
theorem formats_agree (file_id file_size : UInt64)
    (chunk_size total_chunks expected_crc32 chunk_index chunk_crc32 : UInt32) :
    (∀ base : Bytes,
      DecodesTo (startPayload file_id file_size chunk_size total_chunks expected_crc32 base)
        (.start ⟨file_id, file_size, chunk_size, total_chunks, expected_crc32, base.take 512⟩)) ∧
    (∀ name : List UInt16, ∃ payload,
      WebPage.Codec.buildFileStart file_id.toNat file_size.toNat chunk_size.toNat
        total_chunks.toInt32.toInt expected_crc32.toNat name = some payload ∧
      DecodesTo payload (.start ⟨file_id, file_size, chunk_size, total_chunks, expected_crc32,
        (JavaScript.textEncode name).take 512⟩)) ∧
    DecodesTo (MainClient.queryMessage file_id) (.query file_id) ∧
    DecodesTo (WebPage.Codec.buildFileQuery file_id.toNat) (.query file_id) ∧
    (∀ data : Bytes,
      DecodesTo (MainClient.chunkMessage file_id chunk_index chunk_crc32 data)
        (.chunk ⟨file_id, chunk_index, chunk_crc32, data⟩) ∧
      ∃ payload, WebPage.Codec.buildFileChunk file_id.toNat chunk_index.toNat chunk_crc32.toNat
          data.length data = some payload ∧
        DecodesTo payload (.chunk ⟨file_id, chunk_index, chunk_crc32, data⟩)) ∧
    (∀ status,
      MainClient.parseChunkAck (chunkAck file_id chunk_index status) =
          some (file_id, chunk_index) ∧
        WebPage.Codec.ackIdx (chunkAck file_id chunk_index status) =
          some (chunk_index.toNat : Int)) ∧
    (∀ bitmap : Bytes, bitmap.length = (total_chunks.toNat + 7) / 8 →
      ResponseDecodes (queryResponse file_id total_chunks bitmap) file_id total_chunks bitmap) ∧
    ∀ (disk : FileSystem Bytes) (calls : List Call) (sys : SysResults) (payload reply : Bytes),
      reply ∈ (handleClientMessage sys payload (Run.final perform (start disk) calls)).2 →
      reply.head? = some MSG_FILE_QUERY_RESPONSE →
      ∃ id st, (handleClientMessage sys payload
          (Run.final perform (start disk) calls)).1.g_states.lookup id = some st ∧
        reply = queryResponse id st.total_chunks st.bitmap ∧
        ResponseDecodes reply id st.total_chunks st.bitmap := by
  have word (w : UInt32) : UInt32.ofInt (w.toNat : Int) = w := by
    rw [JavaScript.word_nat, UInt32.ofNat_toNat]
  refine ⟨?_, ?_, queryMessage_decodes file_id, ?_, ?_, chunkAck_decoded file_id chunk_index, ?_,
    ?_⟩
  · intro base
    exact startPayload_decodes ⟨_, _, _, _, _, base.take 512⟩ base rfl
  · intro name
    refine ⟨_, WebPage.Codec.buildFileStart_bytes .., ?_⟩
    rw [word, word, JavaScript.word_signed]
    exact startPayload_decodes ⟨_, _, _, _, _, (JavaScript.textEncode name).take 512⟩ _ rfl
  · rw [WebPage.Codec.buildFileQuery_bytes]
    exact queryMessage_decodes file_id
  · intro data
    have decodes := chunkMessage_decodes ⟨file_id, chunk_index, chunk_crc32, data⟩
    refine ⟨decodes, _, WebPage.Codec.buildFileChunk_bytes .., ?_⟩
    rw [word, word]
    simpa only [MainClient.chunkMessage, List.cons_append, List.append_assoc] using decodes
  · intro bitmap size
    exact queryResponse_decodes file_id size
  · intro disk calls sys payload reply mem response
    exact responses_decode mem response

/-- A bitmap of one byte, and the reply to a FILE_QUERY for a file of two chunks whose second
    chunk has arrived. -/
theorem halfUpload_decodes :
    ResponseDecodes (queryResponse 7 2 [2]) 7 2 [2] ∧
      ∃ reply ∈ (handleClientMessage willing (MSG_FILE_QUERY :: writeU64BE 7)
          (Run.final perform (start .empty) halfUpload)).2,
        ∃ id total_chunks bitmap, reply = queryResponse id total_chunks bitmap ∧
          ResponseDecodes reply id total_chunks bitmap := by
  obtain ⟨_, _, _, _, _, _, values, runs⟩ := formats_agree 7 3 2 2 0 0 0
  have first : ((handleClientMessage willing (MSG_FILE_QUERY :: writeU64BE 7)
      (Run.final perform (start .empty) halfUpload)).2.head?.bind List.head?) =
      some MSG_FILE_QUERY_RESPONSE := by decide +kernel
  obtain ⟨reply, here, response⟩ := Option.bind_eq_some_iff.mp first
  have mem := List.mem_of_head? here
  obtain ⟨id, st, _, shape, decodes⟩ := runs .empty halfUpload willing _ reply mem response
  exact ⟨values [2] (by decide), reply, mem, id, _, _, shape, decodes⟩

end FileTransferManager
