import CellFilter.Gzip.Bits

/-!
# Inflating

Compressed data consists of blocks.  A block is stored as it is, or is a sequence of symbols: bytes,
and references to what was written before.  The code of the symbols is fixed or stands at the head
of the block.  What lies before the beginning of the data counts as zeros.
-/

namespace CellFilter.Gzip

/-- A code: how many code words there are of each length from one bit on, and the symbols in the
order of their code words. -/
structure Code where
  counts : List Nat
  symbols : List Nat

namespace Code

/-- The code in which the symbol at each place has a code word of the given length; zero stands for
none. -/
def ofLengths (lengths : List Nat) : Code :=
  let sizes := List.range' 1 15
  { counts := sizes.map fun n => lengths.count n
    symbols := sizes.flatMap fun n =>
      lengths.zipIdx.filterMap fun entry => if entry.1 = n then some entry.2 else none }

/-- How many code words of sixteen bits the code words take up. -/
def space (code : Code) : Nat := code.counts.foldl (fun total n => 2 * (total + n)) 0

/-- Whether every sequence of bits starts with a code word. -/
def isComplete (code : Code) : Bool := code.space == 65536

/-- Whether the code may be used: it is complete or has at most one code word. -/
def isUsable (code : Code) : Bool := code.isComplete || decide (code.symbols.length ≤ 1)

/-- Reads the rest of a code word.  `word` is what was read of it, `first` the first code word of
the present length and `index` the number of shorter code words. -/
def readFrom (symbols : List Nat) (word first index : Nat) :
    List Nat → BitInput → Option (Nat × BitInput)
  | [], _ => none
  | count :: counts, input => do
    let (b, input) ← input.bit
    let word := 2 * word + b
    let first := 2 * first
    if word < first + count then
      let symbol ← symbols[index + (word - first)]?
      return (symbol, input)
    else readFrom symbols word (first + count) (index + count) counts input

/-- Reads one symbol. -/
def read (code : Code) (input : BitInput) : Option (Nat × BitInput) :=
  readFrom code.symbols 0 0 0 code.counts input

end Code

/-- The least length that a length symbol stands for, and how many bits are added to it. -/
def lengthTable : List (Nat × Nat) :=
  [(3, 0), (4, 0), (5, 0), (6, 0), (7, 0), (8, 0), (9, 0), (10, 0), (11, 1), (13, 1), (15, 1),
    (17, 1), (19, 2), (23, 2), (27, 2), (31, 2), (35, 3), (43, 3), (51, 3), (59, 3), (67, 4),
    (83, 4), (99, 4), (115, 4), (131, 5), (163, 5), (195, 5), (227, 5), (258, 0)]

/-- The least distance that a distance symbol stands for, and how many bits are added to it. -/
def distanceTable : List (Nat × Nat) :=
  [(1, 0), (2, 0), (3, 0), (4, 0), (5, 1), (7, 1), (9, 2), (13, 2), (17, 3), (25, 3), (33, 4),
    (49, 4), (65, 5), (97, 5), (129, 6), (193, 6), (257, 7), (385, 7), (513, 8), (769, 8),
    (1025, 9), (1537, 9), (2049, 10), (3073, 10), (4097, 11), (6145, 11), (8193, 12), (12289, 12),
    (16385, 13), (24577, 13)]

/-- The lengths of the fixed code for bytes and lengths. -/
def fixedLengths : List Nat :=
  List.replicate 144 8 ++ List.replicate 112 9 ++ List.replicate 24 7 ++ List.replicate 8 8

/-- The fixed code for bytes and lengths. -/
def fixedCode : Code := .ofLengths fixedLengths

/-- The fixed code for distances. -/
def fixedDistanceCode : Code := .ofLengths (List.replicate 32 5)

/-- Reads what a symbol of a table stands for. -/
def readExtra (table : List (Nat × Nat)) (symbol : Nat) (input : BitInput) :
    Option (Nat × BitInput) := do
  let (least, bits) ← table[symbol]?
  let (extra, input) ← input.number bits
  return (least + extra, input)

/-- Writes so many bytes again that stand `distance` before the end. -/
def copyBack (distance : Nat) : Nat → Array UInt8 → Array UInt8
  | 0, out => out
  | n + 1, out =>
    let b := if distance ≤ out.size then out.getD (out.size - distance) 0 else 0
    copyBack distance n (out.push b)

/-- Reads the symbols of a block up to its end. -/
def readSymbols (code distances : Code) :
    (fuel : Nat) → Array UInt8 → BitInput → Option (Array UInt8 × BitInput)
  | 0, _, _ => none
  | fuel + 1, out, input => do
    let (symbol, input) ← code.read input
    if symbol < 256 then readSymbols code distances fuel (out.push symbol.toUInt8) input
    else if symbol = 256 then return (out, input)
    else
      let (length, input) ← readExtra lengthTable (symbol - 257) input
      let (symbol, input) ← distances.read input
      let (distance, input) ← readExtra distanceTable symbol input
      readSymbols code distances fuel (copyBack distance length out) input

/-- Reads a stored block: its length, the complement of its length, and its bytes. -/
def readStored (out : Array UInt8) (input : BitInput) : Option (Array UInt8 × BitInput) :=
  match input.align with
  | a :: b :: c :: d :: rest =>
    let length := Bytes.ofLittleEndian [a, b]
    if Bytes.ofLittleEndian [c, d] = 65535 - length ∧ length ≤ rest.length then
      some (out ++ rest.take length, .ofBytes (rest.drop length))
    else none
  | _ => none

/-- The order in which the lengths of the code for lengths are written. -/
def lengthOrder : List Nat := [16, 17, 18, 0, 8, 7, 9, 6, 10, 5, 11, 4, 12, 3, 13, 2, 14, 1, 15]

/-- Reads so many numbers of three bits. -/
def readThrees : Nat → BitInput → Option (List Nat × BitInput)
  | 0, input => some ([], input)
  | n + 1, input => do
    let (first, input) ← input.number 3
    let (others, input) ← readThrees n input
    return (first :: others, input)

/-- Reads code lengths, with their repetitions, until there are `total`; `lengths` holds those read
so far, the latest first. -/
def readLengths (code : Code) (total : Nat) :
    (fuel : Nat) → List Nat → BitInput → Option (List Nat × BitInput)
  | 0, _, _ => none
  | fuel + 1, lengths, input =>
    if total ≤ lengths.length then
      if lengths.length = total then some (lengths.reverse, input) else none
    else do
      let (symbol, input) ← code.read input
      let again (length bits least : Nat) : Option (List Nat × BitInput) := do
        let (n, input) ← input.number bits
        readLengths code total fuel (List.replicate (least + n) length ++ lengths) input
      if symbol < 16 then readLengths code total fuel (symbol :: lengths) input
      else if symbol = 16 then
        match lengths with
        | [] => none
        | last :: _ => again last 2 3
      else if symbol = 17 then again 0 3 3
      else again 0 7 11

/-- Reads the two codes at the head of a block. -/
def readCodes (input : BitInput) : Option (Code × Code × BitInput) := do
  let (a, input) ← input.number 5
  let (b, input) ← input.number 5
  let (c, input) ← input.number 4
  let symbols := a + 257
  let distances := b + 1
  if 286 < symbols ∨ 30 < distances then none else
  let (threes, input) ← readThrees (c + 4) input
  let lengthCode := Code.ofLengths ((List.range 19).map fun s =>
    (((lengthOrder.zip threes).find? fun entry => entry.1 == s).map Prod.snd).getD 0)
  if !lengthCode.isComplete then none else
  let total := symbols + distances
  let (lengths, input) ← readLengths lengthCode total (total + 1) [] input
  let code := Code.ofLengths (lengths.take symbols)
  let distanceCode := Code.ofLengths (lengths.drop symbols)
  if code.isUsable && distanceCode.isUsable then return (code, distanceCode, input) else none

/-- Reads one block. -/
def readBlock (kind : Nat) (out : Array UInt8) (input : BitInput) :
    Option (Array UInt8 × BitInput) :=
  let fuel := 8 * input.rest.length + 1
  match kind with
  | 0 => readStored out input
  | 1 => readSymbols fixedCode fixedDistanceCode fuel out input
  | 2 => do
    let (code, distances, input) ← readCodes input
    readSymbols code distances fuel out input
  | _ => none

/-- Reads blocks up to the final one. -/
def readBlocks : (fuel : Nat) → Array UInt8 → BitInput → Option (Array UInt8 × BitInput)
  | 0, _, _ => none
  | fuel + 1, out, input => do
    let (final, input) ← input.bit
    let (kind, input) ← input.number 2
    let (out, input) ← readBlock kind out input
    if final = 1 then return (out, input) else readBlocks fuel out input

/-- Inflates the data at the front of a byte string: what it stands for, and the bytes after it. -/
def inflate (bytes : Bytes) : Option (Bytes × Bytes) := do
  let (out, input) ← readBlocks (8 * bytes.length + 1) #[] (.ofBytes bytes)
  return (out.toList, input.align)

end CellFilter.Gzip
