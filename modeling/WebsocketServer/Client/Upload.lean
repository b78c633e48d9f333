import WebsocketServer.File.Protocol

/- The upload half of the command line client. Its copies of the readers, the writers and the
   message numbers are the server's. -/
namespace MainClient
open FileTransferManager

def bitmapMissing (bitmap : Bytes) (idx : UInt32) : Bool :=
  let byte := idx / 8
  let bit := idx % 8
  if byte.toNat ≥ bitmap.length then true
  else
    let owned := ((bitmap.getD byte.toNat 0 >>> bit.toUInt8) &&& 0x1) != 0
    !owned

/-- A FILE_QUERY_RESPONSE, read into queryTotalChunks and bitmap. The length test is made in 32
    bits. -/
def parseQueryResponse (payload : Bytes) : Option (UInt32 × Bytes) :=
  match payload with
  | [] => none
  | msgType :: q =>
      if msgType ≠ MSG_FILE_QUERY_RESPONSE then none
      else if payload.length < 1 + 8 + 4 + 4 then none
      else
        let queryTotalChunks := readU32BE (q.drop 8)
        let bitmapLen := readU32BE (q.drop 12)
        if payload.length < (1 + 8 + 4 + 4 + bitmapLen).toNat then none
        else some (queryTotalChunks, (payload.drop (1 + 8 + 4 + 4)).take bitmapLen.toNat)

def fnv1a64 (s : Bytes) : UInt64 :=
  s.foldl (fun hash c => (hash ^^^ c.toUInt64) * 1099511628211) 1469598103934665603

def fileBasename (path : Bytes) : Bytes :=
  (path.reverse.takeWhile fun c => c != slash && c != backslash).reverse

/-- A regular file and the arguments it is uploaded with. A chunk size of zero ends the program
    at the division, before anything is sent. -/
structure Upload where
  filePath : Bytes
  content : Bytes
  chunkSize : UInt32 := 64 * 1024
  corruptChunkIndex : Int32 := -1
  off_t_size : content.length < 2 ^ 63
  divisible : chunkSize ≠ 0

theorem defaultChunk_nonzero : (64 * 1024 : UInt32) ≠ 0 := by decide

namespace Upload
variable (u : Upload)

def fileSize : UInt64 := UInt64.ofNat u.content.length

def totalChunks : UInt32 :=
  ((u.fileSize + u.chunkSize.toUInt64 - 1) / u.chunkSize.toUInt64).toUInt32

def computeFileCrc32 : UInt32 :=
  CRC32.finish ((u.content.toChunks (64 * 1024)).foldl CRC32.update CRC32.reset)

def fileId : UInt64 := fnv1a64 u.filePath

def startPayload : Bytes :=
  let base := (fileBasename u.filePath).take 512
  MSG_FILE_START :: writeU64BE u.fileId ++ writeU64BE u.fileSize ++ writeU32BE u.chunkSize ++
    writeU32BE u.totalChunks ++ writeU32BE u.computeFileCrc32 ++
    writeU16BE (UInt16.ofNat base.length) ++ base

def queryPayload : Bytes := MSG_FILE_QUERY :: writeU64BE u.fileId

def offset (chunkIndex : UInt32) : UInt64 := chunkIndex.toUInt64 * u.chunkSize.toUInt64

def curLen (chunkIndex : UInt32) : UInt32 :=
  let remaining := u.fileSize - u.offset chunkIndex
  (min remaining u.chunkSize.toUInt64).toUInt32

/-- The bytes of a chunk; fewer than asked for is an exception. -/
def readChunk (chunkIndex : UInt32) : Option Bytes :=
  let data := (u.content.drop (u.offset chunkIndex).toNat).take (u.curLen chunkIndex).toNat
  if data.length ≠ (u.curLen chunkIndex).toNat then none else some data

def chunkPayload (chunkIndex : UInt32) (data : Bytes) : Bytes :=
  let chunkCrc := CRC32.checksum data
  let chunkCrc :=
    if chunkIndex.toInt32 = u.corruptChunkIndex then chunkCrc ^^^ 0xFFFFFFFF else chunkCrc
  MSG_FILE_CHUNK :: writeU64BE u.fileId ++ writeU32BE chunkIndex ++ writeU32BE chunkCrc ++ data

def missingChunks (bitmap : Bytes) : List UInt32 :=
  ((List.range u.totalChunks.toNat).map UInt32.ofNat).filter (bitmapMissing bitmap)

def chunkPayloads : List UInt32 → List Bytes
  | [] => []
  | chunkIndex :: later =>
      match u.readChunk chunkIndex with
      | none => []
      | some data => u.chunkPayload chunkIndex data :: chunkPayloads later

/-- Everything the client sends for an upload after it was told this bitmap. -/
def payloads (bitmap : Bytes) : List Bytes :=
  u.startPayload :: u.queryPayload :: u.chunkPayloads (u.missingChunks bitmap)

end Upload

end MainClient
