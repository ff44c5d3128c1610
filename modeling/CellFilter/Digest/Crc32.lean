import CellFilter.Bytes

/-!
# Cyclic redundancy check

The 32-bit check of a byte string that closes a gzip member.
-/

namespace CellFilter.Crc32

/-- Divides one bit out of the register. -/
def shift (r : UInt32) : UInt32 := if r &&& 1 = 1 then (r >>> 1) ^^^ 0xEDB88320 else r >>> 1

/-- Feeds one byte to the register. -/
def feed (r : UInt32) (b : UInt8) : UInt32 := Nat.repeat shift 8 (r ^^^ b.toUInt32)

/-- The check of a byte string. -/
def of (bytes : Bytes) : UInt32 := bytes.foldl feed 0xFFFFFFFF ^^^ 0xFFFFFFFF

end CellFilter.Crc32
