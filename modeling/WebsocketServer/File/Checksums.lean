import WebsocketServer.Common.Crc32Bits
import WebsocketServer.Client.WebCrc
import WebsocketServer.File.ClientMessage
import WebsocketServer.File.LastChunk

/- The checksums of the upload protocol: one function however it is computed, and chunks that were
   altered on their way. -/
namespace FileTransferManager
open CRC32

theorem computeFdCrc32_file {sys : SysResults} {disk : FileSystem Bytes} {fd : Nat} {data : Bytes}
    (file : disk.readFd fd = some data) (seeks : sys.lseekOk = true)
    (complete : readGivesUp sys.reads data.length = false) :
    computeFdCrc32 sys disk (some fd) = .ok (checksum data) := by
  cases result : computeFdCrc32 sys disk (some fd) with
  | error what =>
    have gives_up := (crc_fails sys file).mp ⟨what, result⟩
    simp [seeks, complete] at gives_up
  | ok value => rw [computeFdCrc32_ok file result]

/-- The streaming interface over any blocks, the one-shot function, the web page and the bit-serial
    definition give one value, and so does the whole-file check over any reads that come to the
    end. -/
theorem checksums_agree (blocks : List Bytes) :
    finish (blocks.foldl update reset) = checksum blocks.flatten ∧
      WebPage.crc32Bytes blocks.flatten = (checksum blocks.flatten).toNat ∧
      checksum blocks.flatten = bitSerial blocks.flatten ∧
      ∀ (sys : SysResults) (disk : FileSystem Bytes) (fd : Nat),
        disk.readFd fd = some blocks.flatten → sys.lseekOk = true →
          readGivesUp sys.reads blocks.flatten.length = false →
            computeFdCrc32 sys disk (some fd) = .ok (checksum blocks.flatten) := by
  refine ⟨checksum_blocks blocks, WebPage.crc32Bytes_eq _, checksum_bitSerial _, ?_⟩
  intro sys disk fd file seeks complete
  exact computeFdCrc32_file file seeks complete

/- Three bytes in a temporary file, read one, then interrupted, then the rest. -/
theorem three_bytes_agree :
    let disk : FileSystem Bytes :=
      (FileSystem.empty.openTruncate (makeTempPath 7) 3).pwrite 3 [1, 2, 3] 0
    computeFdCrc32 ⟨0, none, true, none, true, [.upTo 1, .interrupted, .upTo 5], true, true⟩ disk
      (some 3) = .ok (checksum [1, 2, 3]) :=
  (checksums_agree [[1], [], [2, 3]]).2.2.2 _ _ 3 (by decide) rfl (by decide)

def ChunkFields.payload (c : ChunkFields) : Bytes :=
  writeU64BE c.file_id ++ (writeU32BE c.chunk_index ++ (writeU32BE c.chunk_crc32 ++ c.chunkData))

theorem checkChunk_mismatch (m : Manager) {c : ChunkFields}
    (mismatch : checksum c.chunkData ≠ c.chunk_crc32) :
    ∃ replies, checkChunk m c.payload = .error replies := by
  rw [checkChunk_decodes, ChunkFields.payload, decodeChunk_fields]
  simp only [Except.mapError, Except.bind, checkFields]
  split
  · exact ⟨_, rfl⟩
  · simp only [mismatch, ne_eq, not_false_eq_true, ↓reduceIte]
    split
    · exact ⟨_, rfl⟩
    · split
      · exact ⟨_, rfl⟩
      · split <;> exact ⟨_, rfl⟩

theorem refused_not_taken {m : Manager} {p : Bytes} {replies : List Bytes}
    (refused : checkChunk m p = .error replies) (id : UInt64) (i : UInt32) :
    chunkAck id i 1 ∉ replies := by
  intro member
  have error_head (code : error_codes.Code) (reason : String) :
      chunkAck id i 1 ≠ mkError code reason := by
    intro same
    have heads : some MSG_FILE_CHUNK_ACK = some MSG_FILE_ERROR := congrArg List.head? same
    exact absurd heads (by decide)
  obtain ⟨code, reason, _, rfl | ⟨id', i', rfl⟩⟩ := checkChunk_error refused
  · exact error_head code reason (List.mem_singleton.mp member)
  · rcases List.mem_cons.mp member with same | rest
    · exact error_head code reason same
    · exact absurd (chunkAck_status (List.mem_singleton.mp rest)) (by decide)

/-- A chunk altered by a burst of at most 32 bits is not accepted under the checksum of what was
    sent: nothing changes and no acknowledgement says 1. -/
theorem burst_never_accepted {sent received : Bytes} (same : sent.length = received.length)
    (altered : sent ≠ received) {p : Nat} (burst : Burst p sent received) :
    checksum sent ≠ checksum received ∧
      ∀ (sys : SysResults) (m : Manager) (file_id : UInt64) (chunk_index : UInt32),
        let message : ChunkFields := ⟨file_id, chunk_index, checksum sent, received⟩
        let result := handleClientMessage sys (MSG_FILE_CHUNK :: message.payload) m
        result.1 = m ∧ ∀ id i, chunkAck id i 1 ∉ result.2 := by
  have detected := checksum_burst same altered burst
  refine ⟨detected, ?_⟩
  intro sys m file_id chunk_index message result
  obtain ⟨replies, refused⟩ := checkChunk_mismatch m (c := message) (Ne.symm detected)
  have answered : result = (m, replies) := by
    simp only [result, handleClientMessage, handleFileChunk, refused]
    rfl
  rw [answered]
  exact ⟨rfl, refused_not_taken refused⟩

theorem single_bytes_burst (a b : UInt8) : Burst 0 [a] [b] := by
  intro k other
  refine ⟨Nat.zero_le k, ?_⟩
  by_contra late
  have outside : 1 ≤ k / 8 := by omega
  apply other
  unfold CRC32.bitAt
  rw [List.getD_eq_default _ _ outside, List.getD_eq_default _ _ outside]

/- One byte, its lowest bit turned over. -/
theorem flipped_bit_refused :
    checksum [0] ≠ checksum [1] ∧
      ∀ (sys : SysResults) (m : Manager) (file_id : UInt64) (chunk_index : UInt32),
        let message : ChunkFields := ⟨file_id, chunk_index, checksum [0], [1]⟩
        let result := handleClientMessage sys (MSG_FILE_CHUNK :: message.payload) m
        result.1 = m ∧ ∀ id i, chunkAck id i 1 ∉ result.2 :=
  burst_never_accepted rfl (by decide) (single_bytes_burst 0 1)

end FileTransferManager
