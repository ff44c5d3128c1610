import CellFilter.Decimal.Binary

/-!
# Shortest decimal text of a binary number

The digits of a finite number are the fewest that read back as the same number; of two candidates
of equal length the nearer one is taken, and the greater one if both are equally near.  How the
digits are laid out (with or without an exponent, with or without a fraction) is a matter of the
`NumberStyle` in use.
-/

namespace CellFilter.Decimal

/-- The number `0.digits * 10 ^ point`, its digits given as one whole number without trailing
zeros. -/
structure Digits where
  digits : List Char
  point : Int
  deriving Repr

/-- The number of decimal digits of a positive whole number. -/
def digitCount (n : Nat) : Nat := (Nat.toDigits 10 n).length

/-- Drops zeros at the end. -/
def trimZeros (digits : List Char) : List Char := (digits.reverse.dropWhile (· == '0')).reverse

/-- A fraction and the open or closed interval of numbers that round to it, over one denominator. -/
structure Neighbourhood where
  low : Nat
  value : Nat
  high : Nat
  den : Nat
  closed : Bool

/-- Whether `n * unit / unitDen` lies in the interval. -/
def Neighbourhood.holds (v : Neighbourhood) (n unit unitDen : Nat) : Bool :=
  let x := n * unit * v.den
  if v.closed then decide (v.low * unitDen ≤ x) && decide (x ≤ v.high * unitDen)
  else decide (v.low * unitDen < x) && decide (x < v.high * unitDen)

/-- The best number of the grid with unit `10 ^ exponent` that lies in the interval. -/
def Neighbourhood.onGrid (v : Neighbourhood) (exponent : Int) : Option Nat :=
  let unit := if 0 ≤ exponent then Nat.pow 10 exponent.toNat else 1
  let unitDen := if 0 ≤ exponent then 1 else Nat.pow 10 (-exponent).toNat
  let num := v.value * unitDen
  let den := v.den * unit
  let below := num / den
  match v.holds below unit unitDen, v.holds (below + 1) unit unitDen with
  | true, true => some (if 2 * (num % den) < den then below else below + 1)
  | true, false => some below
  | false, true => some (below + 1)
  | false, false => none

/-- Tries grids of one digit, two digits and so on; `top` is the exponent of the leading digit's
upper bound. -/
def Neighbourhood.search (v : Neighbourhood) (top : Int) (count : Nat) : Nat → Digits
  | 0 => ⟨['0'], 1⟩
  | fuel + 1 =>
    let exponent := top - count
    match v.onGrid exponent with
    | some n =>
      let text := Nat.toDigits 10 n
      ⟨trimZeros text, exponent + text.length⟩
    | none => v.search top (count + 1) fuel

/-- The shortest digits of `significand * 2 ^ exponent` in a format. -/
def shortest (f : BinaryFormat) (significand : Nat) (exponent : Int) : Digits :=
  if significand = 0 then ⟨['0'], 1⟩ else
  let e := exponent - 2
  let scale := if 0 ≤ e then 1 <<< e.toNat else 1
  let den := if 0 ≤ e then 1 else 1 <<< (-e).toNat
  let narrow := significand == f.hiddenBit && exponent != f.minExponent
  let v : Neighbourhood :=
    { low := (4 * significand - if narrow then 1 else 2) * scale
      value := 4 * significand * scale
      high := (4 * significand + 2) * scale
      den
      closed := significand % 2 == 0 }
  let top : Int :=
    if v.den ≤ v.value then digitCount (v.value / v.den)
    else 1 - (digitCount ((v.den - 1) / v.value) : Int)
  v.search top 1 20

/-- How a number is laid out: positional while the decimal point stands from `leastPoint` to
`greatestPoint`, otherwise with an exponent after `mark`. -/
structure NumberStyle where
  leastPoint : Int
  greatestPoint : Int
  mark : String
  /-- Whether a whole number shows the fraction zero, positionally and before an exponent. -/
  wholeFraction : Bool
  exponentFraction : Bool
  nan : String
  infinity : String

/-- Digits around a decimal point, the digit zero filling the gaps. -/
def positional (d : Digits) (wholeFraction : Bool) : List Char :=
  let length : Int := d.digits.length
  if d.point ≤ 0 then ['0', '.'] ++ List.replicate (-d.point).toNat '0' ++ d.digits
  else if length ≤ d.point then
    d.digits ++ List.replicate (d.point - length).toNat '0' ++
      (if wholeFraction then ['.', '0'] else [])
  else d.digits.take d.point.toNat ++ ['.'] ++ d.digits.drop d.point.toNat

/-- One digit, the others as a fraction, and the exponent. -/
def scientific (d : Digits) (mark : String) (exponentFraction : Bool) : List Char :=
  let fraction := d.digits.drop 1
  let tail := if fraction.isEmpty then (if exponentFraction then ['.', '0'] else [])
    else '.' :: fraction
  d.digits.take 1 ++ tail ++ mark.toList ++ (toString (d.point - 1)).toList

/-- The text of a number. -/
def render (style : NumberStyle) (f : BinaryFormat) (negative : Bool) : Magnitude → String
  | .nan => style.nan
  | .infinite => (if negative then "-" else "") ++ style.infinity
  | .finite m e =>
    let d := shortest f m e
    let body :=
      if style.leastPoint ≤ d.point ∧ d.point ≤ style.greatestPoint then
        positional d style.wholeFraction
      else scientific d style.mark style.exponentFraction
    (if negative then "-" else "") ++ String.ofList body

end CellFilter.Decimal

namespace CellFilter

/-- The text of a single precision number in a style. -/
def Binary32.render (style : Decimal.NumberStyle) (x : Binary32) : String :=
  Decimal.render style .single x.isNegative x.magnitude

/-- The text of a double precision number in a style. -/
def Binary64.render (style : Decimal.NumberStyle) (x : Binary64) : String :=
  Decimal.render style .double x.isNegative x.magnitude

end CellFilter
