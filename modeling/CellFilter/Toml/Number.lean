import CellFilter.Decimal.Reader
import CellFilter.Toml.Value

/-!
# Bare values of a document

Numbers, truth values, dates and times are written without quotes.  Each is read from the whole run
of characters that it may consist of.  A whole number has 64 bits and may be written to the bases
2, 8, 10 and 16; single underscores may stand between digits.
-/

namespace CellFilter.Toml.Bare

/-- The digits of a run, underscores between them left out. -/
def digits? (isDigit : Char → Bool) : List Char → Option (List Char)
  | [] => none
  | [c] => if isDigit c then some [c] else none
  | c :: d :: rest =>
    if !isDigit c then none
    else if d == '_' then (digits? isDigit rest).map (c :: ·)
    else (digits? isDigit (d :: rest)).map (c :: ·)

/-- The digits of a decimal whole number, which starts with a zero only if it is one. -/
def decimalDigits? (cs : List Char) : Option (List Char) := do
  let digits ← digits? Char.isDigit cs
  if digits.head? == some '0' && 1 < digits.length then none else some digits

/-- The value of digits to a base. -/
def valueOf (base : Nat) (digits : List Char) : Nat :=
  digits.foldl (fun n c => base * n + (Bytes.hexValue? c).getD 0) 0

/-- A number that fits into 64 bits with a sign. -/
def ranged (n : Int) : Option Value :=
  if Int64.minValue.toInt ≤ n ∧ n ≤ Int64.maxValue.toInt then some (.integer n) else none

/-- Whether a character is a digit to a base. -/
def isDigit (base : Nat) (c : Char) : Bool := (Bytes.hexValue? c).any (· < base)

/-- A whole number. -/
def integer? : List Char → Option Value
  | '0' :: 'x' :: cs => (digits? (isDigit 16) cs).bind fun ds => ranged (valueOf 16 ds)
  | '0' :: 'o' :: cs => (digits? (isDigit 8) cs).bind fun ds => ranged (valueOf 8 ds)
  | '0' :: 'b' :: cs => (digits? (isDigit 2) cs).bind fun ds => ranged (valueOf 2 ds)
  | cs =>
    let (negative, body) := Decimal.splitSign cs
    (decimalDigits? body).bind fun ds =>
      ranged (if negative then -(valueOf 10 ds : Int) else valueOf 10 ds)

/-- Whether a run is an exponent with its mark. -/
def isExponent : List Char → Bool
  | c :: rest => (c == 'e' || c == 'E') && (digits? Char.isDigit (Decimal.splitSign rest).2).isSome
  | [] => false

/-- Whether a run is a fraction, an exponent or both. -/
def isFractional : List Char → Bool
  | '.' :: rest =>
    let inner (c : Char) : Bool := c.isDigit || c == '_'
    let tail := rest.dropWhile inner
    (digits? Char.isDigit (rest.takeWhile inner)).isSome && (tail.isEmpty || isExponent tail)
  | cs => isExponent cs

/-- A number with a fraction or an exponent, infinity or NaN.  A positive number must not be too
great for a double. -/
def float? (cs : List Char) : Option Value :=
  let (negative, body) := Decimal.splitSign cs
  let word := String.ofList body
  if word == "inf" || word == "nan" then (Decimal.double? (String.ofList cs)).map .float
  else
    let inner (c : Char) : Bool := c.isDigit || c == '_'
    if (decimalDigits? (body.takeWhile inner)).isSome && isFractional (body.dropWhile inner) then do
      let x ← Decimal.double? (String.ofList (cs.filter (· != '_')))
      if x.magnitude == .infinite && !negative then none else some (.float x)
    else none

/-- A number of two digits between bounds. -/
def pair? (low high : Nat) (a b : Char) : Option Nat := do
  let n ← Decimal.natural? [a, b]
  if low ≤ n ∧ n ≤ high then some n else none

/-- The number of days of a month. -/
def monthLength (year month : Nat) : Nat :=
  if month == 2 then
    if year % 4 == 0 && (year % 100 != 0 || year % 400 == 0) then 29 else 28
  else if [4, 6, 9, 11].contains month then 30 else 31

/-- Whether a run of ten characters is a date. -/
def isDate (cs : List Char) : Bool :=
  match cs with
  | [y1, y2, y3, y4, '-', m1, m2, '-', d1, d2] =>
    let valid? : Option Bool := do
      let year ← Decimal.natural? [y1, y2, y3, y4]
      let month ← pair? 1 12 m1 m2
      let day ← pair? 1 31 d1 d2
      return day ≤ monthLength year month
    valid?.getD false
  | _ => false

/-- The canonical text of a fraction of a second, at most nine digits and no zero at the end. -/
def fraction? (cs : List Char) : Option (List Char) :=
  if cs.isEmpty || !cs.all Char.isDigit then none
  else
    let digits := ((cs.take 9).reverse.dropWhile (· == '0')).reverse
    some (if digits.isEmpty then [] else '.' :: digits)

/-- The canonical text of an offset from universal time. -/
def offset? : List Char → Option (List Char)
  | [] => some []
  | ['Z'] => some ['Z']
  | ['z'] => some ['Z']
  | [sign, h1, h2, ':', m1, m2] =>
    if sign == '+' || sign == '-' then do
      let hours ← pair? 0 23 h1 h2
      let minutes ← pair? 0 59 m1 m2
      return (if hours + minutes == 0 then '+' else sign) :: [h1, h2, ':', m1, m2]
    else none
  | _ => none

/-- The canonical text of a time of day, with an offset where that is allowed. -/
def time? (withOffset : Bool) : List Char → Option (List Char)
  | h1 :: h2 :: ':' :: m1 :: m2 :: ':' :: s1 :: s2 :: rest => do
    let _ ← pair? 0 23 h1 h2
    let _ ← pair? 0 59 m1 m2
    let _ ← pair? 0 60 s1 s2
    let (fraction, tail) ← match rest with
      | '.' :: more => do
        let fraction ← fraction? (more.takeWhile Char.isDigit)
        some (fraction, more.dropWhile Char.isDigit)
      | other => some ([], other)
    let offset ← offset? tail
    if withOffset || tail.isEmpty then
      return [h1, h2, ':', m1, m2, ':', s1, s2] ++ fraction ++ offset
    else none
  | _ => none

/-- The canonical text of a date, a time of day, or both with a mark between them. -/
def dateTime? (cs : List Char) : Option (List Char) :=
  let date := cs.take 10
  if isDate date then
    match cs.drop 10 with
    | [] => some date
    | mark :: rest =>
      if ['T', 't', ' '].contains mark then (time? true rest).map fun t => date ++ 'T' :: t
      else none
  else time? false cs

/-- The value of a run of characters. -/
def value? (cs : List Char) : Option Value :=
  if cs == "true".toList then some (.boolean true)
  else if cs == "false".toList then some (.boolean false)
  else match dateTime? cs with
    | some text => some (.dateTime (String.ofList text))
    | none => (float? cs).orElse fun _ => integer? cs

/-- Whether a character may stand in a bare value. -/
def isBare (c : Char) : Bool := c.isAlphanum || ['+', '-', '.', ':', '_'].contains c

end CellFilter.Toml.Bare
