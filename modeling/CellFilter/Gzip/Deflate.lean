import CellFilter.Gzip.Inflate
import Std.Data.HashMap

/-!
# Deflating

Data is stored as it is, or written as one block in the fixed code, in which a stretch that occurred
shortly before is replaced by a reference to it.  The effort is how many earlier places are tried
for each reference.
-/

namespace CellFilter.Gzip

/-- Data cut into stored blocks. -/
def storeBlocks : (fuel : Nat) → Bytes → Bytes
  | 0, _ => []
  | fuel + 1, data =>
    let block := data.take 65535
    let rest := data.drop 65535
    let header (final : UInt8) : Bytes :=
      final :: (Bytes.littleEndian 2 block.length ++ Bytes.littleEndian 2 (65535 - block.length))
    if rest.isEmpty then header 1 ++ block else header 0 ++ block ++ storeBlocks fuel rest

/-- Data as it is, in stored blocks. -/
def store (data : Bytes) : Bytes := storeBlocks (data.length + 1) data

/-- A piece of deflated data. -/
inductive Piece where
  | byte (b : UInt8)
  /-- So many bytes again that stand at a distance before. -/
  | reference (length distance : Nat)

/-- The number of equal bytes from two places on, at most `limit`. -/
def commonLength (data : Array UInt8) (i j : Nat) : Nat → Nat
  | 0 => 0
  | limit + 1 =>
    if j < data.size ∧ data.getD i 0 = data.getD j 0 then
      commonLength data (i + 1) (j + 1) limit + 1
    else 0

/-- The three bytes at a place, as a number. -/
def tripleAt (data : Array UInt8) (i : Nat) : Nat :=
  (data.getD i 0).toNat + 256 * (data.getD (i + 1) 0).toNat + 65536 * (data.getD (i + 2) 0).toNat

/-- The longest stretch at `i` that also stands at one of the earlier places. -/
def bestReference (data : Array UInt8) (i : Nat) (places : List Nat) : Option (Nat × Nat) :=
  places.foldl (fun best place =>
    let length := commonLength data place i 258
    if 3 ≤ length && decide (i - place ≤ 32768) && best.all (fun b => decide (b.1 < length)) then
      some (length, i - place)
    else best) none

/-- Where each triple of bytes was seen, the latest place first. -/
abbrev Places := Std.HashMap Nat (List Nat)

/-- Notes the triples that start at so many places from `i` on. -/
def notePlaces (data : Array UInt8) (effort : Nat) (i : Nat) : Nat → Places → Places
  | 0, places => places
  | n + 1, places =>
    let key := tripleAt data i
    let known := (places.getD key []).take effort
    notePlaces data effort (i + 1) n (places.insert key (i :: known))

/-- Cuts the data from place `i` on into pieces. -/
def piecesFrom (data : Array UInt8) (effort : Nat) : (fuel : Nat) → Nat → Places → List Piece
  | 0, _, _ => []
  | fuel + 1, i, places =>
    if data.size ≤ i then []
    else
      match bestReference data i (places.getD (tripleAt data i) []) with
      | some (length, distance) =>
        .reference length distance ::
          piecesFrom data effort fuel (i + length) (notePlaces data effort i length places)
      | none =>
        .byte (data.getD i 0) ::
          piecesFrom data effort fuel (i + 1) (notePlaces data effort i 1 places)

/-- Cuts data into pieces. -/
def pieces (data : Bytes) (effort : Nat) : List Piece :=
  piecesFrom data.toArray effort (data.length + 1) 0 {}

/-- The fixed code word of a symbol. -/
def fixedWord (symbol : Nat) : List Bool :=
  if symbol < 144 then highFirst 8 (0x30 + symbol)
  else if symbol < 256 then highFirst 9 (0x190 + (symbol - 144))
  else if symbol < 280 then highFirst 7 (symbol - 256)
  else highFirst 8 (0xC0 + (symbol - 280))

/-- The last row of a table that does not exceed a number: its place and its contents. -/
def rowFor (table : List (Nat × Nat)) (n : Nat) : Nat × Nat × Nat :=
  let row := (table.filter fun r => r.1 ≤ n).length - 1
  (row, table.getD row (0, 0))

/-- The bits of a piece. -/
def Piece.bits : Piece → List Bool
  | .byte b => fixedWord b.toNat
  | .reference length distance =>
    let (row, least, extra) := rowFor lengthTable length
    let (far, leastFar, extraFar) := rowFor distanceTable distance
    fixedWord (257 + row) ++ lowFirst extra (length - least) ++ highFirst 5 far ++
      lowFirst extraFar (distance - leastFar)

/-- Data as one block in the fixed code. -/
def deflate (data : Bytes) (effort : Nat) : Bytes :=
  packBits ([true, true, false] ++ (pieces data effort).flatMap Piece.bits ++ fixedWord 256)

end CellFilter.Gzip
