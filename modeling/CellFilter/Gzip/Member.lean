import CellFilter.Digest.Crc32
import CellFilter.Error
import CellFilter.Gzip.Deflate

/-!
# Gzip members

A member is a header, deflated data, and the check and length of what the data stands for.  Only
the first member of a byte string is read.  Whatever is written reads back: a deflated form that
would not is replaced by the stored one.
-/

namespace CellFilter.Gzip

/-- Whether a byte string starts like a gzip member. -/
def isGzip : Bytes → Bool
  | a :: b :: _ => a == 0x1F && b == 0x8B
  | _ => false

/-- How long a text in a header may be. -/
def maxHeaderText : Nat := 65535

/-- Drops a text and the zero that ends it. -/
def dropText (bytes : Bytes) : Option Bytes :=
  let text := bytes.takeWhile (· != 0)
  match bytes.drop text.length with
  | _ :: rest => if text.length ≤ maxHeaderText then some rest else none
  | [] => none

/-- Drops an extra field after its length. -/
def dropExtra : Bytes → Option Bytes
  | a :: b :: rest =>
    let n := Bytes.ofLittleEndian [a, b]
    if n ≤ rest.length then some (rest.drop n) else none
  | _ => none

/-- Checks and drops the check of the header, given what the header was read from. -/
def dropHeaderCheck (whole rest : Bytes) : Option Bytes :=
  let header := whole.take (whole.length - rest.length)
  match rest with
  | a :: b :: tail =>
    if Bytes.ofLittleEndian [a, b] = (Crc32.of header).toNat % 65536 then some tail else none
  | _ => none

/-- Drops the header of a member. -/
def dropHeader (bytes : Bytes) : Option Bytes :=
  match bytes with
  | 0x1F :: 0x8B :: 8 :: flags :: _ :: _ :: _ :: _ :: _ :: _ :: rest => do
    let isSet (bit : Nat) : Bool := flags.toNat.testBit bit
    if 32 ≤ flags then none else
    let rest ← if isSet 2 then dropExtra rest else some rest
    let rest ← if isSet 3 then dropText rest else some rest
    let rest ← if isSet 4 then dropText rest else some rest
    if isSet 1 then dropHeaderCheck bytes rest else some rest
  | _ => none

/-- The bytes that close a member. -/
def trailer (data : Bytes) : Bytes :=
  Bytes.littleEndian 4 (Crc32.of data).toNat ++ Bytes.littleEndian 4 data.length

/-- What the first member of a byte string stands for. -/
def unpack? (bytes : Bytes) : Option Bytes := do
  let body ← dropHeader bytes
  let (data, rest) ← inflate body
  if rest.take 8 = trailer data then return data else none

/-- What the first member of a byte string stands for. -/
def decompress (bytes : Bytes) : Except FilterError Bytes :=
  if isGzip bytes then
    match unpack? bytes with
    | some data => .ok data
    | none => .error (.malformedPayload .gzipStream)
  else .error (.malformedPayload .missingGzipHeader)

/-- The header of a member; it tells the least and the greatest effort. -/
def header (level : Nat) : Bytes :=
  let hint := if 9 ≤ level then 2 else if level ≤ 1 then 4 else 0
  [0x1F, 0x8B, 8, 0, 0, 0, 0, 0, hint, 255]

/-- A member with its data stored as it is. -/
def storedMember (level : Nat) (data : Bytes) : Bytes := header level ++ store data ++ trailer data

/-- A member with its data deflated. -/
def deflatedMember (level : Nat) (data : Bytes) : Bytes :=
  header level ++ deflate data (4 * level) ++ trailer data

/-- Compresses data at a level from 0, which stores it, to 9.  The deflated form is taken only if it
is the shorter one and reads back. -/
def compress (data : Bytes) (level : Nat) : Bytes :=
  let stored := storedMember level data
  if level = 0 then stored
  else
    let packed := deflatedMember (min level 9) data
    if packed.length < stored.length ∧ unpack? packed = some data then packed else stored

end CellFilter.Gzip
