import WebsocketServer.File.Protocol

/- What the upload page does with a FILE_QUERY_RESPONSE. Numbers are doubles that hold integers
   here; | 0 takes them to 32 signed bits. -/
namespace WebPage
open FileTransferManager

def toInt32 (x : Nat) : Int := (x : Int).bmod (2 ^ 32)

/-- An element of a Uint8Array; outside of it is undefined, which operators take as 0. -/
def element (u8 : Bytes) (i : Int) : UInt8 := if i < 0 then 0 else u8.getD i.toNat 0

def bitmapMissing (bitmap : Bytes) (idx : Nat) : Bool :=
  let byte := toInt32 (idx / 8)
  let bit := idx % 8
  if byte ≥ bitmap.length then true
  else ((element bitmap byte).toNat >>> bit) &&& 1 == 0

/-- The type check of the upload handler and parseQueryResponse; none is a throw. -/
def parseQueryResponse (u8 : Bytes) : Option (Nat × Bytes) :=
  if u8.head? ≠ some MSG_FILE_QUERY_RESPONSE then none
  else if u8.length < 1 + 8 + 4 + 4 then none
  else
    let total := (readU32BE (u8.drop (1 + 8))).toNat
    let bitmapLen := (readU32BE (u8.drop (1 + 8 + 4))).toNat
    let need := 1 + 8 + 4 + 4 + bitmapLen
    if u8.length < need then none
    else some (total, (u8.take need).drop (1 + 8 + 4 + 4))

end WebPage
