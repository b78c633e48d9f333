import WebsocketServer.Library.CString

/- The table-driven CRC32 class with polynomial 0xEDB88320. -/
namespace CRC32

/-- One round of the table loop: c & 1 selects the polynomial. -/
def shiftStep (c : UInt32) : UInt32 :=
  if c &&& 1 != 0 then (0xEDB88320 : UInt32) ^^^ (c >>> 1) else c >>> 1

def tableEntry (i : UInt32) : UInt32 := Nat.repeat shiftStep 8 i

def table_ : List UInt32 := (List.range 256).map fun i => tableEntry (UInt32.ofNat i)

def updateByte (current : UInt32) (b : UInt8) : UInt32 :=
  table_.getD ((current ^^^ b.toUInt32) &&& 0xFF).toNat 0 ^^^ (current >>> 8)

def reset : UInt32 := 0xFFFFFFFF

def update (current : UInt32) (data : Bytes) : UInt32 := data.foldl updateByte current

def finish (current : UInt32) : UInt32 := current ^^^ 0xFFFFFFFF

def checksum (data : Bytes) : UInt32 := data.foldl updateByte 0xFFFFFFFF ^^^ 0xFFFFFFFF

theorem update_append (current : UInt32) (a b : Bytes) :
    update current (a ++ b) = update (update current a) b :=
  List.foldl_append

theorem finish_update (data : Bytes) : finish (update reset data) = checksum data := rfl

example : checksum (CString.bytes "123456789") = 0xCBF43926 := by decide +kernel

end CRC32
