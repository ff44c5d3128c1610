import CellFilter.Bytes

/-!
# Binary floating-point words

Single and double precision numbers as the words that hold them.  A word is decoded into a sign and
a magnitude `m * 2 ^ e`, compared by the two orders in use (arithmetic equality and the total
order of words), and built by rounding an exact fraction to the nearest representable number.
-/

namespace CellFilter

/-- The shape of a binary format: bits of the significand (the hidden one included) and of the
exponent. -/
structure BinaryFormat where
  precision : Nat
  exponentBits : Nat

namespace BinaryFormat

/-- Four-byte numbers. -/
def single : BinaryFormat := ⟨24, 8⟩

/-- Eight-byte numbers. -/
def double : BinaryFormat := ⟨53, 11⟩

/-- The number of bits of a word. -/
def width (f : BinaryFormat) : Nat := f.precision + f.exponentBits

/-- The exponent of the unit of the smallest numbers. -/
def minExponent (f : BinaryFormat) : Int :=
  3 - ((1 <<< (f.exponentBits - 1) : Nat) : Int) - (f.precision : Int)

/-- The leading bit of a significand, which a word leaves out. -/
def hiddenBit (f : BinaryFormat) : Nat := 1 <<< (f.precision - 1)

/-- The exponent field of infinities and NaNs. -/
def specialExponent (f : BinaryFormat) : Nat := (1 <<< f.exponentBits) - 1

/-- The bits of positive infinity. -/
def infinity (f : BinaryFormat) : Nat := f.specialExponent * f.hiddenBit

/-- The bits of the quiet NaN without sign. -/
def nan (f : BinaryFormat) : Nat := f.infinity + 1 <<< (f.precision - 2)

/-- The sign bit. -/
def signBit (f : BinaryFormat) : Nat := 1 <<< (f.width - 1)

end BinaryFormat

/-- What a word stands for. -/
inductive Magnitude where
  | nan
  | infinite
  /-- The number `significand * 2 ^ exponent`. -/
  | finite (significand : Nat) (exponent : Int)
  deriving DecidableEq, Repr

namespace BinaryFormat

variable (f : BinaryFormat)

/-- The word without its sign. -/
def unsigned (bits : Nat) : Nat := bits % f.signBit

/-- Whether the sign bit is set. -/
def isNegative (bits : Nat) : Bool := f.signBit ≤ bits

/-- The magnitude of a word. -/
def magnitude (bits : Nat) : Magnitude :=
  let hidden := f.hiddenBit
  let exponent := f.unsigned bits / hidden
  let fraction := f.unsigned bits % hidden
  if exponent = f.specialExponent then if fraction = 0 then .infinite else .nan
  else if exponent = 0 then .finite fraction f.minExponent
  else .finite (fraction + hidden) (f.minExponent + exponent - 1)

/-- The quotient rounded to the nearest whole number, ties to the even one. -/
def roundDiv (num den : Nat) : Nat :=
  let q := num / den
  let twice := 2 * (num % den)
  if twice < den then q else if den < twice then q + 1 else q + q % 2

/-- The bits of the number nearest to `num / den`, ties to the even significand. -/
def round (num den : Nat) : Nat :=
  if num = 0 then 0 else
  let scaled (e : Int) : Nat × Nat :=
    if 0 ≤ e then (num, den <<< e.toNat) else (num <<< (-e).toNat, den)
  let estimate : Int := (num.log2 : Int) - den.log2 - f.precision
  let tooSmall (e : Int) : Bool := let s := scaled e; decide (s.2 <<< f.precision ≤ s.1)
  let e0 := max estimate f.minExponent
  let e := if tooSmall e0 then (if tooSmall (e0 + 1) then e0 + 2 else e0 + 1) else e0
  let s := scaled e
  let m := roundDiv s.1 s.2
  let hidden := f.hiddenBit
  let bits := if m < hidden then m else (e - f.minExponent).toNat * hidden + m
  min bits f.infinity

/-- The bits of `significand * 2 ^ exponent` rounded to this format. -/
def roundScaled (significand : Nat) (exponent : Int) : Nat :=
  if 0 ≤ exponent then f.round (significand <<< exponent.toNat) 1
  else f.round significand (1 <<< (-exponent).toNat)

end BinaryFormat

/-- A single precision number. -/
structure Binary32 where
  bits : UInt32
  deriving DecidableEq, Repr, Inhabited

/-- A double precision number. -/
structure Binary64 where
  bits : UInt64
  deriving DecidableEq, Repr, Inhabited

/-- A word as a place on the line that orders all words: negative ones reversed below. -/
def totalPlace (f : BinaryFormat) (bits : Nat) : Int :=
  if f.isNegative bits then -(f.unsigned bits : Int) - 1 else f.unsigned bits

/-- Arithmetic equality: NaN equals nothing and both zeros are equal. -/
def arithmeticEq (f : BinaryFormat) (a b : Nat) : Bool :=
  match f.magnitude a, f.magnitude b with
  | .nan, _ => false
  | _, .nan => false
  | _, _ => a == b || (f.unsigned a == 0 && f.unsigned b == 0)

namespace Binary32

/-- The magnitude of the number. -/
def magnitude (x : Binary32) : Magnitude := BinaryFormat.single.magnitude x.bits.toNat

/-- Whether the sign bit is set. -/
def isNegative (x : Binary32) : Bool := BinaryFormat.single.isNegative x.bits.toNat

/-- Equality of numbers, under which NaN differs from itself. -/
def numberEq (x y : Binary32) : Bool := arithmeticEq .single x.bits.toNat y.bits.toNat

/-- The total order of words. -/
def compare (x y : Binary32) : Ordering :=
  Ord.compare (totalPlace .single x.bits.toNat) (totalPlace .single y.bits.toNat)

end Binary32

namespace Binary64

/-- The magnitude of the number. -/
def magnitude (x : Binary64) : Magnitude := BinaryFormat.double.magnitude x.bits.toNat

/-- Whether the sign bit is set. -/
def isNegative (x : Binary64) : Bool := BinaryFormat.double.isNegative x.bits.toNat

/-- Equality of numbers, under which NaN differs from itself. -/
def numberEq (x y : Binary64) : Bool := arithmeticEq .double x.bits.toNat y.bits.toNat

/-- The total order of words. -/
def compare (x y : Binary64) : Ordering :=
  Ord.compare (totalPlace .double x.bits.toNat) (totalPlace .double y.bits.toNat)

/-- The nearest single precision number. -/
def toSingle (x : Binary64) : Binary32 :=
  let sign := if x.isNegative then BinaryFormat.single.signBit else 0
  let bits := match x.magnitude with
    | .nan => BinaryFormat.single.nan
    | .infinite => BinaryFormat.single.infinity
    | .finite m e => BinaryFormat.single.roundScaled m e
  ⟨(sign + bits).toUInt32⟩

end Binary64

end CellFilter
