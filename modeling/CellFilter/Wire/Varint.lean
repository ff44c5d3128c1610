import CellFilter.Bytes

/-!
# Variable-length integers

Seven bits to a byte, least significant first; every byte but the last has its top bit set.
Writing yields the shortest form.  Reading accepts longer forms too, but at most ten bytes and no
value of more than 64 bits.
-/

namespace CellFilter.Varint

/-- The shortest form of a number. -/
def encode (n : Nat) : Bytes :=
  if n < 128 then [n.toUInt8] else (n % 128 + 128).toUInt8 :: encode (n / 128)
termination_by n
decreasing_by omega

/-- Reads a number of at most `limit` bytes; the last of them may hold one bit only. -/
def decodeWithin : Nat → Bytes → Option (Nat × Bytes)
  | 0, _ => none
  | _ + 1, [] => none
  | limit + 1, b :: rest =>
    if b < 128 then
      if limit = 0 ∧ 2 ≤ b then none else some (b.toNat, rest)
    else do
      let (n, tail) ← decodeWithin limit rest
      return (b.toNat - 128 + 128 * n, tail)

/-- Reads a number of at most 64 bits off the front. -/
def decode (bytes : Bytes) : Option (Nat × Bytes) := decodeWithin 10 bytes

end CellFilter.Varint
