import CellFilter.Error

/-!
# Framing

The items from which payloads, predicates and groups are built.  For each there is a writer, which
yields its bytes, and a reader, which takes it off the front of the input.  Lengths and counts are
variable-length integers; byte strings and texts follow their length; an optional byte string
follows a presence byte.
-/

namespace CellFilter

/-- A reader takes something off the front of its input or fails. -/
abbrev Reader := StateT Bytes (Except FilterError)

namespace Frame

/-- A byte. -/
def putByte (b : UInt8) : Bytes := [b]

/-- A truth value as the byte 0 or 1. -/
def putBool (b : Bool) : Bytes := [if b then 1 else 0]

/-- A byte string after its length. -/
def putBytes (bytes : Bytes) : Bytes := Varint.encode bytes.length ++ bytes

/-- An optional byte string after its presence byte. -/
def putOptional : Option Bytes → Bytes
  | none => putBool false
  | some bytes => putBool true ++ putBytes bytes

/-- A text after its length in bytes. -/
def putText (s : String) : Bytes := putBytes (Utf8.encode s)

/-- A number of 128 bits, most significant byte first. -/
def putWide (n : BitVec 128) : Bytes := Bytes.bigEndian 16 n.toNat

/-- Takes `needed` bytes. -/
def take (needed : Nat) : Reader Bytes := fun input =>
  if needed ≤ input.length then .ok (input.take needed, input.drop needed)
  else .error (.truncated needed input.length)

/-- Reads a byte. -/
def byte : Reader UInt8
  | [] => .error (.truncated 1 0)
  | b :: rest => .ok (b, rest)

/-- Reads a truth value. -/
def bool : Reader Bool := do
  let b ← byte
  if b = 0 then return false
  else if b = 1 then return true
  else throw (.malformedPayload (.invalidBool b))

/-- Reads a variable-length integer. -/
def varint : Reader Nat := fun input =>
  match Varint.decode input with
  | some r => .ok r
  | none => .error (.undecodable .invalidVarint)

/-- The number of bytes that are left. -/
def remaining : Reader Nat := fun input => .ok (input.length, input)

/-- Reads a count or length, which cannot exceed the number of bytes left. -/
def length : Reader Nat := do
  let n ← varint
  let available ← remaining
  if n ≤ available then return n else throw (.truncated n available)

/-- Reads a byte string. -/
def bytes : Reader Bytes := do take (← length)

/-- Reads an optional byte string. -/
def optional : Reader (Option Bytes) := do
  if ← bool then return some (← bytes) else return none

/-- Reads a text. -/
def text : Reader String := do
  match Utf8.decode (← bytes) with
  | .ok s => return s
  | .error fault => throw (.malformedPayload (.invalidString fault))

/-- Reads a number of 128 bits. -/
def wide : Reader (BitVec 128) := do return .ofNat 128 (Bytes.ofBigEndian (← take 16))

/-- Runs a reader `count` times. -/
def many {α : Type} (count : Nat) (reader : Reader α) : Reader (List α) :=
  match count with
  | 0 => return []
  | n + 1 => do
    let first ← reader
    return first :: (← many n reader)

/-- Runs a reader on the whole input; `fault` is the complaint about bytes left over. -/
def whole {α : Type} (reader : Reader α) (fault : PayloadFault) (input : Bytes) :
    Except FilterError α := do
  let (value, rest) ← reader input
  if rest.isEmpty then return value else throw (.malformedPayload fault)

end Frame

end CellFilter
