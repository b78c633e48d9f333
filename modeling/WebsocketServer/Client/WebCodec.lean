import WebsocketServer.Library.JavaScript
import WebsocketServer.Client.WebPage
import WebsocketServer.File.Upload

/- How the upload page builds and reads the messages. Its functions write into an array of the
   final size and do their arithmetic with the operators of JavaScript; what they write is shown
   to be the bytes of the server's own writers. -/
namespace WebPage.Codec
open JavaScript FileTransferManager

/-- for (i = n - 1; i >= 0; i--) { u8[offset + i] = Number(x & 0xffn); x >>= 8n; } -/
def storeDigits (offset : Nat) : Nat → Nat → Bytes → Bytes
  | 0, _, u8 => u8
  | n + 1, x, u8 =>
      storeDigits offset n (x >>> 8) (store u8 (offset + n) ((x &&& 0xff : Nat) : Int))

def writeU64BE (u8 : Bytes) (offset : Nat) (bigintVal : Nat) : Bytes :=
  storeDigits offset 8 bigintVal u8

def writeU32BE (u8 : Bytes) (offset : Nat) (v : Int) : Bytes :=
  let u8 := store u8 offset (bitAnd (unsignedShiftRight v 24) 0xff)
  let u8 := store u8 (offset + 1) (bitAnd (unsignedShiftRight v 16) 0xff)
  let u8 := store u8 (offset + 2) (bitAnd (unsignedShiftRight v 8) 0xff)
  store u8 (offset + 3) (bitAnd v 0xff)

def writeU16BE (u8 : Bytes) (offset : Nat) (v : Int) : Bytes :=
  let u8 := store u8 offset (bitAnd (unsignedShiftRight v 8) 0xff)
  store u8 (offset + 1) (bitAnd v 0xff)

def readU32BE (u8 : Bytes) (o : Nat) : Int :=
  unsignedShiftRight
    (bitOr (bitOr (bitOr (shiftLeft (byteAt u8 o) 24) (shiftLeft (byteAt u8 (o + 1)) 16))
      (shiftLeft (byteAt u8 (o + 2)) 8)) (byteAt u8 (o + 3))) 0

/-- BigInt(undefined) is a TypeError. -/
def readU64BE (u8 : Bytes) (o : Nat) : Option Nat :=
  (List.range 8).foldlM (fun h i => (u8[o + i]?).map (BigEndian.shiftIn h)) 0

/-- What the functions inside the upload handler take from around them is an argument here. -/
def buildFileStart (fileId fileSize : Nat) (chunkSize totalChunks expectedCrc : Int)
    (name : List UInt16) : Option Bytes :=
  let nameEnc := textEncode name
  let len := min nameEnc.length 512
  let out := zeros (1 + 8 + 8 + 4 + 4 + 4 + 2 + len)
  let out := store out 0 MSG_FILE_START.toNat
  let out := writeU64BE out 1 fileId
  let out := writeU64BE out 9 fileSize
  let out := writeU32BE out 17 chunkSize
  let out := writeU32BE out 21 (unsignedShiftRight totalChunks 0)
  let out := writeU32BE out 25 expectedCrc
  let out := writeU16BE out 29 len
  setAt out (subarray nameEnc 0 len) 31

def buildFileQuery (fileId : Nat) : Bytes :=
  let out := zeros (1 + 8)
  let out := store out 0 MSG_FILE_QUERY.toNat
  writeU64BE out 1 fileId

def buildFileChunk (fileId : Nat) (chunkIndex chunkCrc : Int) (curLen : Nat) (slice : Bytes) :
    Option Bytes :=
  let payload := zeros (1 + 8 + 4 + 4 + curLen)
  let payload := store payload 0 MSG_FILE_CHUNK.toNat
  let payload := writeU64BE payload 1 fileId
  let payload := writeU32BE payload 9 chunkIndex
  let payload := writeU32BE payload 13 chunkCrc
  setAt payload slice 17

def parseQueryResponse (u8 : Bytes) : Option (Int × Bytes) :=
  if u8.length < 1 + 8 + 4 + 4 then none
  else
    let total := readU32BE u8 (1 + 8)
    let bitmapLen := readU32BE u8 (1 + 8 + 4)
    let need := 1 + 8 + 4 + 4 + bitmapLen
    if (u8.length : Int) < need then none
    else some (total, subarray u8 (1 + 8 + 4 + 4) need.toNat)

def ackIdx (r : Bytes) : Option Int :=
  if byteAt r 0 = MSG_FILE_CHUNK_ACK.toNat ∧ r.length ≥ 1 + 8 + 4 + 1 then
    some (readU32BE r (1 + 8))
  else none

/- An array that is filled from the front. -/
section
variable {front : Bytes} {offset : Nat}

theorem store_next (position : front.length = offset) (rest : Nat) (x : Int) :
    store (front ++ zeros (1 + rest)) offset x = front ++ [UInt8.ofInt x] ++ zeros rest := by
  subst position
  rw [Nat.add_comm, zeros, List.replicate_succ, store_append, List.append_assoc]
  rfl

theorem storeDigits_next (position : front.length = offset) (n x : Nat) (rest : Bytes) :
    storeDigits offset n x (front ++ zeros n ++ rest) =
      front ++ BigEndian.digits n x ++ rest := by
  induction n generalizing x rest with
  | zero => rfl
  | succ n ih =>
    have last : store (front ++ zeros (n + 1) ++ rest) (offset + n) ((x &&& 0xff : Nat) : Int) =
        front ++ zeros n ++ (UInt8.ofNat (x &&& 0xff) :: rest) := by
      have position' : (front ++ zeros n).length = offset + n := by
        rw [List.length_append, position, zeros, List.length_replicate]
      have shape : front ++ zeros (n + 1) ++ rest = front ++ zeros n ++ 0 :: rest := by
        simp only [zeros, List.replicate_succ', List.append_assoc, List.singleton_append]
      rw [shape, ← position', store_append, byte_nat]
    rw [storeDigits, last, ih, BigEndian.digits_snoc]
    simp only [List.append_assoc, List.singleton_append]

theorem writeU64BE_next (position : front.length = offset) (rest x : Nat) :
    writeU64BE (front ++ zeros (8 + rest)) offset x =
      front ++ BigEndian.digits 8 x ++ zeros rest := by
  have split : zeros (8 + rest) = zeros 8 ++ zeros rest := List.replicate_add ..
  rw [writeU64BE, split, ← List.append_assoc, storeDigits_next position]

theorem writeU16BE_next (position : front.length = offset) (rest : Nat) (v : Int) :
    writeU16BE (front ++ zeros (2 + rest)) offset v =
      front ++ BigEndian.digits 2 (UInt32.ofInt v).toNat ++ zeros rest := by
  have second (a : UInt8) : (front ++ [a]).length = offset + 1 := by
    rw [List.length_append, position, List.length_singleton]
  rw [show 2 + rest = 1 + (1 + rest) by omega, writeU16BE, store_next position,
    store_next (second _), byte_shifted v (by decide), byte_low]
  simp only [List.append_assoc]
  rfl

theorem writeU32BE_next (position : front.length = offset) (rest : Nat) (v : Int) :
    writeU32BE (front ++ zeros (4 + rest)) offset v =
      front ++ BigEndian.digits 4 (UInt32.ofInt v).toNat ++ zeros rest := by
  have second (a : UInt8) : (front ++ [a]).length = offset + 1 := by
    rw [List.length_append, position, List.length_singleton]
  have third (a b : UInt8) : (front ++ [a] ++ [b]).length = offset + 2 := by
    rw [List.length_append, second, List.length_singleton]
  have fourth (a b c : UInt8) : (front ++ [a] ++ [b] ++ [c]).length = offset + 3 := by
    rw [List.length_append, third, List.length_singleton]
  rw [show 4 + rest = 1 + (1 + (1 + (1 + rest))) by omega, writeU32BE, store_next position,
    store_next (second _), store_next (third _ _), store_next (fourth _ _ _),
    byte_shifted v (by decide), byte_shifted v (by decide), byte_shifted v (by decide), byte_low]
  simp only [List.append_assoc]
  rfl

theorem setAt_next (position : front.length = offset) (source : Bytes) :
    setAt (front ++ zeros source.length) source offset = some (front ++ source) := by
  subst position
  have length : (front ++ zeros source.length).length = front.length + source.length := by
    rw [List.length_append, zeros, List.length_replicate]
  rw [setAt, if_neg (by omega), List.take_left, List.drop_of_length_le (by omega),
    List.append_nil]

end

theorem type_first (msgType : UInt8) (rest : Nat) :
    store (zeros (1 + rest)) 0 msgType.toNat = [msgType] ++ zeros rest := by
  have first := @store_next [] 0 rfl rest msgType.toNat
  rw [byte_nat, UInt8.ofNat_toNat] at first
  exact first

/- The arguments are numbers of the page; only their low bits reach the message. -/
theorem buildFileStart_bytes (fileId fileSize : UInt64) (chunkSize totalChunks expectedCrc : Int)
    (name : List UInt16) :
    buildFileStart fileId.toNat fileSize.toNat chunkSize totalChunks expectedCrc name =
      some (startPayload fileId fileSize (UInt32.ofInt chunkSize) (UInt32.ofInt totalChunks)
        (UInt32.ofInt expectedCrc) (textEncode name)) := by
  have size : min (textEncode name).length 512 = ((textEncode name).take 512).length := by
    rw [List.length_take, Nat.min_comm]
  have cut : subarray (textEncode name) 0 ((textEncode name).take 512).length =
      (textEncode name).take 512 := by
    rw [subarray, List.drop_zero, List.length_take, ← List.take_eq_take_min]
  have fits : (UInt32.ofNat ((textEncode name).take 512).length).toNat =
      (UInt16.ofNat ((textEncode name).take 512).length).toNat := by
    rw [UInt32.toNat_ofNat', UInt16.toNat_ofNat', List.length_take]
    omega
  have unsigned : UInt32.ofInt (unsignedShiftRight totalChunks 0) = UInt32.ofInt totalChunks := by
    rw [unsignedShiftRight, UInt32.shiftRight_zero, word_nat, UInt32.ofNat_toNat]
  have shape (len : Nat) : 1 + 8 + 8 + 4 + 4 + 4 + 2 + len =
      1 + (8 + (8 + (4 + (4 + (4 + (2 + len)))))) := by omega
  simp only [buildFileStart, size, cut]
  rw [shape, type_first, writeU64BE_next (by simp), writeU64BE_next (by simp),
    writeU32BE_next (by simp), writeU32BE_next (by simp), writeU32BE_next (by simp),
    writeU16BE_next (by simp), setAt_next (by simp)]
  simp only [startPayload, FileTransferManager.writeU64BE, FileTransferManager.writeU32BE,
    FileTransferManager.writeU16BE, fits, word_nat, unsigned, List.append_assoc,
    List.cons_append, List.nil_append]

theorem buildFileQuery_bytes (fileId : UInt64) :
    buildFileQuery fileId.toNat = MSG_FILE_QUERY :: FileTransferManager.writeU64BE fileId := by
  have position : ([MSG_FILE_QUERY] : Bytes).length = 1 := rfl
  have whole := writeU64BE_next position 0 fileId.toNat
  rw [buildFileQuery, type_first]
  rw [show zeros 0 = [] from rfl, List.append_nil] at whole
  exact whole

theorem buildFileChunk_bytes (fileId : UInt64) (chunkIndex chunkCrc : Int) (slice : Bytes) :
    buildFileChunk fileId.toNat chunkIndex chunkCrc slice.length slice =
      some (MSG_FILE_CHUNK :: (FileTransferManager.writeU64BE fileId ++
        (FileTransferManager.writeU32BE (UInt32.ofInt chunkIndex) ++
          (FileTransferManager.writeU32BE (UInt32.ofInt chunkCrc) ++ slice)))) := by
  have shape (len : Nat) : 1 + 8 + 4 + 4 + len = 1 + (8 + (4 + (4 + len))) := by omega
  simp only [buildFileChunk]
  rw [shape, type_first, writeU64BE_next (by simp), writeU32BE_next (by simp),
    writeU32BE_next (by simp), setAt_next (by simp)]
  simp only [FileTransferManager.writeU64BE, FileTransferManager.writeU32BE, List.append_assoc,
    List.cons_append, List.nil_append]

theorem readU32BE_eq {u8 : Bytes} {o : Nat} (inside : o + 4 ≤ u8.length) :
    readU32BE u8 o = (FileTransferManager.readU32BE (u8.drop o)).toNat := by
  have at0 := List.drop_eq_getElem_cons (show o < u8.length by omega)
  have at1 := List.drop_eq_getElem_cons (show o + 1 < u8.length by omega)
  have at2 := List.drop_eq_getElem_cons (show o + 2 < u8.length by omega)
  have at3 := List.drop_eq_getElem_cons (show o + 3 < u8.length by omega)
  have read {i : Nat} (lt : i < u8.length) : u8.getD i 0 = u8[i] := List.getD_eq_getElem ..
  rw [at0, at1, at2, at3, readU32BE_bytes]
  simp only [readU32BE, unsignedShiftRight, bitOr, shiftLeft, word_signed, word_byteAt,
    UInt32.shiftRight_zero]
  rw [read (by omega), read (by omega), read (by omega), read (by omega)]

theorem readLoop_value {bs : Bytes} (n : Nat) (inside : n ≤ bs.length) :
    (List.range n).foldlM (fun h i => (bs[i]?).map (BigEndian.shiftIn h)) 0 =
      some (BigEndian.value (bs.take n)) := by
  induction n with
  | zero => rfl
  | succ n ih =>
    have lt : n < bs.length := by omega
    rw [List.range_succ, List.foldlM_append, ih (by omega), List.take_succ_eq_append_getElem lt,
      BigEndian.value_snoc]
    simp [List.getElem?_eq_getElem lt]

theorem readU64BE_eq {u8 : Bytes} {o : Nat} (inside : o + 8 ≤ u8.length) :
    readU64BE u8 o = some (BigEndian.value ((u8.drop o).take 8)) := by
  have loop := readLoop_value 8 (show 8 ≤ (u8.drop o).length by rw [List.length_drop]; omega)
  simp only [List.getElem?_drop] at loop
  exact loop

theorem parseQueryResponse_eq (u8 : Bytes) :
    WebPage.parseQueryResponse u8 =
      if u8.head? ≠ some MSG_FILE_QUERY_RESPONSE then none
      else (parseQueryResponse u8).map fun q => (q.1.toNat, q.2) := by
  unfold WebPage.parseQueryResponse
  split
  · rfl
  · unfold parseQueryResponse
    split
    · rfl
    · have total := readU32BE_eq (show 1 + 8 + 4 ≤ u8.length by omega)
      have bitmapLen := readU32BE_eq (show 1 + 8 + 4 + 4 ≤ u8.length by omega)
      simp only [total, bitmapLen]
      generalize (FileTransferManager.readU32BE (u8.drop (1 + 8 + 4))).toNat = n
      split
      · rw [if_pos (by omega)]
        rfl
      · rw [if_neg (by omega), Option.map_some, Int.toNat_natCast, subarray]
        rfl

end WebPage.Codec
