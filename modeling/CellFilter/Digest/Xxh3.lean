import CellFilter.Bytes

/-!
# XXH3, 128 bits

A fast hash of byte strings that is not meant to withstand an adversary.  Short strings of four
ranges of length have formulas of their own; from 241 bytes on, the string is accumulated in eight
lanes, stripe by stripe of 64 bytes.  The seed is zero throughout.
-/

namespace CellFilter.Xxh3

/-- The bytes that are mixed with the input. -/
def secret : Array UInt8 :=
  #[0xb8, 0xfe, 0x6c, 0x39, 0x23, 0xa4, 0x4b, 0xbe, 0x7c, 0x01, 0x81, 0x2c, 0xf7, 0x21, 0xad, 0x1c,
    0xde, 0xd4, 0x6d, 0xe9, 0x83, 0x90, 0x97, 0xdb, 0x72, 0x40, 0xa4, 0xa4, 0xb7, 0xb3, 0x67, 0x1f,
    0xcb, 0x79, 0xe6, 0x4e, 0xcc, 0xc0, 0xe5, 0x78, 0x82, 0x5a, 0xd0, 0x7d, 0xcc, 0xff, 0x72, 0x21,
    0xb8, 0x08, 0x46, 0x74, 0xf7, 0x43, 0x24, 0x8e, 0xe0, 0x35, 0x90, 0xe6, 0x81, 0x3a, 0x26, 0x4c,
    0x3c, 0x28, 0x52, 0xbb, 0x91, 0xc3, 0x00, 0xcb, 0x88, 0xd0, 0x65, 0x8b, 0x1b, 0x53, 0x2e, 0xa3,
    0x71, 0x64, 0x48, 0x97, 0xa2, 0x0d, 0xf9, 0x4e, 0x38, 0x19, 0xef, 0x46, 0xa9, 0xde, 0xac, 0xd8,
    0xa8, 0xfa, 0x76, 0x3f, 0xe3, 0x9c, 0x34, 0x3f, 0xf9, 0xdc, 0xbb, 0xc7, 0xc7, 0x0b, 0x4f, 0x1d,
    0x8a, 0x51, 0xe0, 0x4b, 0xcd, 0xb4, 0x59, 0x31, 0xc8, 0x9f, 0x7e, 0xc9, 0xd9, 0x78, 0x73, 0x64,
    0xea, 0xc5, 0xac, 0x83, 0x34, 0xd3, 0xeb, 0xc3, 0xc5, 0x81, 0xa0, 0xff, 0xfa, 0x13, 0x63, 0xeb,
    0x17, 0x0d, 0xdd, 0x51, 0xb7, 0xf0, 0xda, 0x49, 0xd3, 0x16, 0x55, 0x26, 0x29, 0xd4, 0x68, 0x9e,
    0x2b, 0x16, 0xbe, 0x58, 0x7d, 0x47, 0xa1, 0xfc, 0x8f, 0xf8, 0xb8, 0xd1, 0x7a, 0xd0, 0x31, 0xce,
    0x45, 0xcb, 0x3a, 0x8f, 0x95, 0x16, 0x04, 0x28, 0xaf, 0xd7, 0xfb, 0xca, 0xbb, 0x4b, 0x40, 0x7e]

/-- The first multiplier of 32 bits. -/
def prime32A : UInt64 := 0x9E3779B1

/-- The second multiplier of 32 bits. -/
def prime32B : UInt64 := 0x85EBCA77

/-- The third multiplier of 32 bits. -/
def prime32C : UInt64 := 0xC2B2AE3D

/-- The first multiplier of 64 bits. -/
def prime64A : UInt64 := 0x9E3779B185EBCA87

/-- The second multiplier of 64 bits. -/
def prime64B : UInt64 := 0xC2B2AE3D27D4EB4F

/-- The third multiplier of 64 bits. -/
def prime64C : UInt64 := 0x165667B19E3779F9

/-- The fourth multiplier of 64 bits. -/
def prime64D : UInt64 := 0x85EBCA77C2B2AE63

/-- The fifth multiplier of 64 bits. -/
def prime64E : UInt64 := 0x27D4EB2F165667C5

/-- A word of `width` bytes at an offset, least significant byte first. -/
def readWord (data : Array UInt8) (width offset : Nat) : UInt64 :=
  (List.range width).foldr (fun i acc => (acc <<< 8) ||| (data.getD (offset + i) 0).toUInt64) 0

/-- A word of eight bytes. -/
def read64 (data : Array UInt8) (offset : Nat) : UInt64 := readWord data 8 offset

/-- A word of four bytes. -/
def read32 (data : Array UInt8) (offset : Nat) : UInt64 := readWord data 4 offset

/-- A hash under construction: its low and its high half. -/
structure Halves where
  low : UInt64
  high : UInt64

/-- The whole product of two words. -/
def wideMul (a b : UInt64) : Halves :=
  let p := a.toNat * b.toNat
  ⟨p.toUInt64, (p >>> 64).toUInt64⟩

/-- Both halves of the product of two words, folded together. -/
def foldMul (a b : UInt64) : UInt64 :=
  let p := wideMul a b
  p.low ^^^ p.high

/-- The low 32 bits of a word. -/
def low32 (x : UInt64) : UInt64 := x &&& 0xFFFFFFFF

/-- The bytes of a word of `width` bytes in reverse order. -/
def swapBytes (width : Nat) (x : UInt64) : UInt64 :=
  (Bytes.ofBigEndian (Bytes.littleEndian width x.toNat)).toUInt64

/-- Spreads every bit of a word over the whole word. -/
def avalanche (h : UInt64) : UInt64 :=
  let h := (h ^^^ (h >>> 37)) * 0x165667919E3779F9
  h ^^^ (h >>> 32)

/-- Spreads bits more thoroughly, for the shortest strings. -/
def strongAvalanche (h : UInt64) : UInt64 :=
  let h := (h ^^^ (h >>> 33)) * prime64B
  let h := (h ^^^ (h >>> 29)) * prime64C
  h ^^^ (h >>> 32)

/-- A word of the secret. -/
def key64 (offset : Nat) : UInt64 := read64 secret offset

/-- The hash of the empty string. -/
def hashEmpty : Halves :=
  ⟨strongAvalanche (key64 64 ^^^ key64 72), strongAvalanche (key64 80 ^^^ key64 88)⟩

/-- The hash of one to three bytes. -/
def hash1to3 (data : Array UInt8) : Halves :=
  let len := data.size
  let byteAt (i : Nat) : UInt64 := (data.getD i 0).toUInt64
  let low := (byteAt 0 <<< 16) ||| (byteAt (len / 2) <<< 24) ||| byteAt (len - 1) |||
    (len.toUInt64 <<< 8)
  let swapped := swapBytes 4 low
  let high := low32 (swapped <<< 13) ||| (swapped >>> 19)
  ⟨strongAvalanche (low ^^^ (read32 secret 0 ^^^ read32 secret 4)),
    strongAvalanche (high ^^^ (read32 secret 8 ^^^ read32 secret 12))⟩

/-- The hash of four to eight bytes. -/
def hash4to8 (data : Array UInt8) : Halves :=
  let len := data.size
  let input := read32 data 0 + (read32 data (len - 4) <<< 32)
  let keyed := input ^^^ (key64 16 ^^^ key64 24)
  let m := wideMul keyed (prime64A + (len.toUInt64 <<< 2))
  let high := m.high + (m.low <<< 1)
  let low := m.low ^^^ (high >>> 3)
  let low := (low ^^^ (low >>> 35)) * 0x9FB21C651E98DF25
  ⟨low ^^^ (low >>> 28), avalanche high⟩

/-- The hash of nine to sixteen bytes. -/
def hash9to16 (data : Array UInt8) : Halves :=
  let len := data.size
  let first := read64 data 0
  let last := read64 data (len - 8)
  let m := wideMul (first ^^^ last ^^^ (key64 32 ^^^ key64 40)) prime64A
  let low := m.low + ((len - 1).toUInt64 <<< 54)
  let last := last ^^^ (key64 48 ^^^ key64 56)
  let high := m.high + (last + low32 last * (prime32B - 1))
  let low := low ^^^ swapBytes 8 high
  let h := wideMul low prime64B
  ⟨avalanche h.low, avalanche (h.high + high * prime64B)⟩

/-- Mixes sixteen bytes with sixteen bytes of the secret. -/
def mix16 (data : Array UInt8) (offset key : Nat) : UInt64 :=
  foldMul (read64 data offset ^^^ key64 key) (read64 data (offset + 8) ^^^ key64 (key + 8))

/-- Mixes two pieces of sixteen bytes into both halves. -/
def mix32 (data : Array UInt8) (acc : Halves) (a b key : Nat) : Halves :=
  ⟨(acc.low + mix16 data a key) ^^^ (read64 data b + read64 data (b + 8)),
    (acc.high + mix16 data b (key + 16)) ^^^ (read64 data a + read64 data (a + 8))⟩

/-- The last step for strings of medium length. -/
def finishMedium (len : Nat) (acc : Halves) : Halves :=
  let high := acc.low * prime64A + acc.high * prime64D + len.toUInt64 * prime64B
  ⟨avalanche (acc.low + acc.high), 0 - avalanche high⟩

/-- The hash of 17 to 128 bytes: pieces from both ends, the inner ones first. -/
def hash17to128 (data : Array UInt8) : Halves :=
  let len := data.size
  let rounds := (len - 1) / 32
  finishMedium len <| (List.range (rounds + 1)).reverse.foldl
    (fun acc i => mix32 data acc (16 * i) (len - 16 * (i + 1)) (32 * i))
    ⟨len.toUInt64 * prime64A, 0⟩

/-- The hash of 129 to 240 bytes: pieces from the front, then the end. -/
def hash129to240 (data : Array UInt8) : Halves :=
  let len := data.size
  let piece (key : Nat → Nat) (acc : Halves) (i : Nat) : Halves :=
    mix32 data acc (32 * i) (32 * i + 16) (key i)
  let acc := (List.range 4).foldl (piece fun i => 32 * i) ⟨len.toUInt64 * prime64A, 0⟩
  let acc : Halves := ⟨avalanche acc.low, avalanche acc.high⟩
  let acc := (List.range' 4 (len / 32 - 4)).foldl (piece fun i => 3 + 32 * (i - 4)) acc
  finishMedium len (mix32 data acc (len - 16) (len - 32) 103)

/-- The eight lanes before the first stripe. -/
def initialLanes : List UInt64 :=
  [prime32C, prime64A, prime64B, prime64C, prime64D, prime32B, prime64E, prime32A]

/-- Adds one stripe of 64 bytes to the lanes; neighbouring lanes take each other's input. -/
def accumulate (data : Array UInt8) (offset key : Nat) (lanes : List UInt64) : List UInt64 :=
  lanes.mapIdx fun (i : Nat) (lane : UInt64) =>
    let value := read64 data (offset + 8 * i)
    let neighbour := read64 data (offset + 8 * (i ^^^ 1))
    let keyed := value ^^^ key64 (key + 8 * i)
    lane + neighbour + low32 keyed * (keyed >>> 32)

/-- Scrambles the lanes at the end of a block. -/
def scramble (lanes : List UInt64) : List UInt64 :=
  lanes.mapIdx fun (i : Nat) (lane : UInt64) =>
    (lane ^^^ (lane >>> 47) ^^^ key64 (128 + 8 * i)) * prime32A

/-- Adds so many stripes from an offset on. -/
def stripes (data : Array UInt8) (offset count : Nat) (lanes : List UInt64) : List UInt64 :=
  (List.range count).foldl
    (fun lanes n => accumulate data (offset + 64 * n) (8 * n) lanes) lanes

/-- Folds the lanes into one word. -/
def mergeLanes (lanes : List UInt64) (key : Nat) (start : UInt64) : UInt64 :=
  avalanche <| (List.range 4).foldl
    (fun acc i => acc + foldMul (lanes.getD (2 * i) 0 ^^^ key64 (key + 16 * i))
      (lanes.getD (2 * i + 1) 0 ^^^ key64 (key + 16 * i + 8))) start

/-- The hash of more than 240 bytes. -/
def hashLong (data : Array UInt8) : Halves :=
  let len := data.size
  let blocks := (len - 1) / 1024
  let lanes := (List.range blocks).foldl
    (fun lanes b => scramble (stripes data (1024 * b) 16 lanes)) initialLanes
  let lanes := stripes data (1024 * blocks) ((len - 1 - 1024 * blocks) / 64) lanes
  let lanes := accumulate data (len - 64) 121 lanes
  ⟨mergeLanes lanes 11 (len.toUInt64 * prime64A),
    mergeLanes lanes 117 (~~~(len.toUInt64 * prime64B))⟩

/-- Both halves of the hash. -/
def halves (data : Array UInt8) : Halves :=
  let len := data.size
  if len = 0 then hashEmpty
  else if len ≤ 3 then hash1to3 data
  else if len ≤ 8 then hash4to8 data
  else if len ≤ 16 then hash9to16 data
  else if len ≤ 128 then hash17to128 data
  else if len ≤ 240 then hash129to240 data
  else hashLong data

/-- The hash of a byte string as a number of 128 bits. -/
def of (bytes : Bytes) : Nat :=
  let h := halves bytes.toArray
  h.high.toNat <<< 64 + h.low.toNat

end CellFilter.Xxh3
