import CellFilter.Bytes

/-!
# Bits of a byte string

Compressed data is a sequence of bits, the least significant bit of each byte first.  A place in it
is the bytes that are left and how many bits of the first of them are used.
-/

namespace CellFilter.Gzip

/-- A place in a sequence of bits. -/
structure BitInput where
  rest : Bytes
  /-- How many bits of the first byte have been read, at most seven. -/
  used : Nat

namespace BitInput

/-- The beginning of a byte string. -/
def ofBytes (bytes : Bytes) : BitInput := ⟨bytes, 0⟩

/-- Reads one bit. -/
def bit (input : BitInput) : Option (Nat × BitInput) :=
  match input.rest with
  | [] => none
  | b :: rest =>
    some ((b.toNat >>> input.used) % 2,
      if input.used = 7 then ⟨rest, 0⟩ else ⟨b :: rest, input.used + 1⟩)

/-- Reads a number of so many bits, least significant bit first. -/
def number : Nat → BitInput → Option (Nat × BitInput)
  | 0, input => some (0, input)
  | n + 1, input => do
    let (low, input) ← input.bit
    let (high, input) ← number n input
    return (low + 2 * high, input)

/-- The bytes after the one being read. -/
def align (input : BitInput) : Bytes :=
  if input.used = 0 then input.rest else input.rest.drop 1

end BitInput

/-- The number whose bits are listed, least significant first. -/
def ofBits : List Bool → Nat
  | [] => 0
  | b :: rest => b.toNat + 2 * ofBits rest

/-- Bits packed into bytes, the last of them filled up with zeros. -/
def packBits : List Bool → Bytes
  | [] => []
  | b :: rest => (ofBits (b :: rest.take 7)).toUInt8 :: packBits (rest.drop 7)
termination_by bits => bits.length
decreasing_by
  simp only [List.length_drop, List.length_cons]
  omega

/-- The bits of a number, least significant first. -/
def lowFirst : Nat → Nat → List Bool
  | 0, _ => []
  | width + 1, n => (n % 2 == 1) :: lowFirst width (n / 2)

/-- The bits of a code word, most significant first. -/
def highFirst (width n : Nat) : List Bool := (lowFirst width n).reverse

end CellFilter.Gzip
