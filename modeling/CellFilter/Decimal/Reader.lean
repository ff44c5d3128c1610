import CellFilter.Decimal.Binary

/-!
# Reading numbers

Whole numbers of a fixed width and double precision numbers from their decimal text.  A sign is
optional everywhere.  A double is the number nearest to the exact value of the text.
-/

namespace CellFilter.Decimal

/-- The value of decimal digits; `none` if another character occurs or there is none at all. -/
def natural? (cs : List Char) : Option Nat :=
  if cs.isEmpty || !cs.all Char.isDigit then none
  else some (cs.foldl (fun n c => 10 * n + (c.toNat - 48)) 0)

/-- Splits an optional sign off: whether it is a minus, and the rest. -/
def splitSign : List Char → Bool × List Char
  | '-' :: rest => (true, rest)
  | '+' :: rest => (false, rest)
  | cs => (false, cs)

/-- A whole number between `low` and `high`; a minus needs a range with negative numbers. -/
def integer? (low high : Int) (text : String) : Option Int := do
  let (negative, digits) := splitSign text.toList
  if negative && 0 ≤ low then none else
  let n ← natural? digits
  let value : Int := if negative then -(n : Int) else n
  if low ≤ value ∧ value ≤ high then some value else none

/-- A signed number of 32 bits. -/
def int32? (text : String) : Option Int32 :=
  (integer? Int32.minValue.toInt Int32.maxValue.toInt text).map Int32.ofInt

/-- A signed number of 64 bits. -/
def int64? (text : String) : Option Int64 :=
  (integer? Int64.minValue.toInt Int64.maxValue.toInt text).map Int64.ofInt

/-- An unsigned number of 32 bits. -/
def uint32? (text : String) : Option UInt32 :=
  (integer? 0 (UInt32.size - 1) text).map fun n => n.toNat.toUInt32

/-- An unsigned number of 64 bits. -/
def uint64? (text : String) : Option UInt64 :=
  (integer? 0 (UInt64.size - 1) text).map fun n => n.toNat.toUInt64

/-- The bits of the double nearest to `significand * 10 ^ exponent`. -/
def roundDecimal (significand : Nat) (exponent : Int) : Nat :=
  let size : Int := (Nat.toDigits 10 significand).length + exponent
  if significand = 0 then 0
  else if 400 < size then BinaryFormat.double.infinity
  else if size < -400 then 0
  else if 0 ≤ exponent then BinaryFormat.double.round (significand * Nat.pow 10 exponent.toNat) 1
  else BinaryFormat.double.round significand (Nat.pow 10 (-exponent).toNat)

/-- The exponent after the mark, if there is one. -/
def exponentPart? : List Char → Option Int
  | [] => some 0
  | c :: rest =>
    if c == 'e' || c == 'E' then do
      let (negative, digits) := splitSign rest
      let n ← natural? digits
      return if negative then -(n : Int) else n
    else none

/-- The bits of an unsigned decimal number with optional fraction and exponent. -/
def magnitude? (cs : List Char) : Option Nat := do
  let whole := cs.takeWhile Char.isDigit
  let rest := cs.dropWhile Char.isDigit
  let (fraction, tail) := match rest with
    | '.' :: more => (more.takeWhile Char.isDigit, more.dropWhile Char.isDigit)
    | other => ([], other)
  let significand ← natural? (whole ++ fraction)
  let exponent ← exponentPart? tail
  return roundDecimal significand (exponent - fraction.length)

/-- A double precision number, infinity or NaN; letters of either case. -/
def double? (text : String) : Option Binary64 := do
  let (negative, body) := splitSign text.toList
  let word := String.ofList (body.map Char.toLower)
  let bits ←
    if word == "inf" || word == "infinity" then some BinaryFormat.double.infinity
    else if word == "nan" then some BinaryFormat.double.nan
    else magnitude? body
  return ⟨((if negative then BinaryFormat.double.signBit else 0) + bits).toUInt64⟩

end CellFilter.Decimal
