import CellFilter.Text.Category
import CellFilter.Text.LetterCase

/-!
# Properties of characters

Yes-or-no properties built from general categories and short tables: what counts as a letter, a
word character, a blank, and what can be printed.
-/

namespace CellFilter.Property

/-- Alphabetic characters that are neither letters nor letter numbers. -/
def otherAlphabetic : CharSet := CharSet.ofText "
345 1 1d d 240 e 1 1 1 2 1 2 1 1 48 b 30 d 1 7 10 1 65 7 4 4 2 2 4 1 23 1 1e 10 66 b 65 2 3 9 1 3
1 4 6a 1 3c c 3 7 6 14 36 2 2 f 1 2 5 3 a 2 1d 3 3a 7 2 2 2 2 a 1 a 2 1d 3 3a 5 4 2 2 2 4 1 1e 2 3
1 b 3 3a 8 1 3 1 2 15 2 16 3 4 3 3a 7 2 2 2 2 9 2 a 2 1e 1 3b 5 3 3 1 3 a 1 28 5 39 7 1 3 1 3 8 2
b 2 1d 3 3a 7 1 3 1 3 8 2 b 2 f 1 c 4 3a 7 1 3 1 3 a 1 a 2 1d 3 4b 6 1 1 1 8 12 2 3d 1 2 7 12 1 63
1 2 6 1 2 10 1 a3 13 9 b 1 24 6e c 1 1 2 4 17 4 4 3 1 3 2 7 3 4 d c 1 1 a 4 674 2 1e 2 1e 2 1e 2
42 13 bc 2 22 1 76 c 4 9 de 5 39 a 2 14 4a 2 b 3 31 5 30 f 3c 3 1e 9 2 2 39 b 32 13 19c 22 6c1 34
8f6 20 7874 8 22 2 162 1 8 1 17 5 58 2 32 10 1 1 39 1 26 5 1c c 2d 4 30 c 25 1 43 e c 1 8 2 2d 3
32 1 1 3 2 2 5 1 2c 5 5 1 ed 8 4f33 1 857 5 686 3 1 2 5 4 314 4 41 1 141 2 4d 3 103 3 35 e 2d 2 b
3 2d 9 9 1 3d 3 24 c 12 2 39 3 30 d e 2 5c 9 2 1 6 1 2 1 9d a 17 4 3a 7 2 2 2 2 a 1 a 2 54 9 1 1 2
1 1 4 1 2 67 d 1 3 6a 12 ed 7 2 7 1d 2 52 f 1 1 6a b 67 e 101 d f7 6 1 2 2 2 3 1 1 1 8e 7 2 6 4 1
1c a 2a 5 1 4 12 b 2e e c8 8 c7 8 1 7 53 16 1 e 7a 6 3 1 1 2 1 3 1 1 3 1 42 5 1 2 1 4 15c 4 9 2 1
1 30 7 3 3 41dd 11 e20 1 1 37 7 4 5d 2 4cac 1 2361 7 1 11 2 7 1 2 1 5 64 1 653 1 2 1 7 2 5 1 251 1
7e8 1a 6 1a 6 1a
"

/-- Upper-case characters outside the category of upper-case letters. -/
def otherUppercase : CharSet := CharSet.ofText "
2160 10 346 1a 1cc60 1a 6 1a 6 1a
"

/-- Lower-case characters outside the category of lower-case letters. -/
def otherLowercase : CharSet := CharSet.ofText "
aa 1 f 1 1f5 9 7 2 1e 5 60 1 34 1 d81 1 c2f 3f d 1 22 25 2b1 1 d 1 10 d d3 10 350 1a 792 2 7a1e 2
d2 1 80 4 3 2 362 4 9 1 5c16 1 2 3 1 2a 1 9 d875 3e
"

/-- Characters besides the marks that extend the character before them. -/
def otherGraphemeExtend : CharSet := CharSet.ofText "
9be 1 18 1 166 1 18 1 66 1 18 1 e8 1 1 1 4 2 1 2 9 2 67 1 18 1 77 1 f 1 935 1 1e 1 400 1 5 1 1 1 5
2 65 1 47 2 418 1 1021 2 7923 1 6c 1 55dd 2 1220 1 74 1 108 1 e 1 9 1 60 1 9 1 2 1 1 3 5 1 e0 1 c
1 f1 1 106 1 279 1 c 1 603 1 50ae 2 6173 2 6 6 c2ead 60
"

/-- Blanks of every kind, line ends included. -/
def whiteSpace : CharSet :=
  [
    (9, 13), (32, 32), (133, 133), (160, 160), (5760, 5760), (8192, 8202), (8232, 8233),
    (8239, 8239), (8287, 8287), (12288, 12288)]

/-- Letters, letter numbers and the marks that act like letters. -/
def isAlphabetic (c : Nat) : Bool :=
  match Category.of c with
  | .uppercaseLetter | .lowercaseLetter | .titlecaseLetter | .modifierLetter | .otherLetter
  | .letterNumber => true
  | _ => otherAlphabetic.contains c

/-- Capital letters and what is used as such. -/
def isUppercase (c : Nat) : Bool :=
  Category.of c == .uppercaseLetter || otherUppercase.contains c

/-- Small letters and what is used as such. -/
def isLowercase (c : Nat) : Bool :=
  Category.of c == .lowercaseLetter || otherLowercase.contains c

/-- Decimal digits of any script. -/
def isDigit (c : Nat) : Bool := Category.of c == .decimalNumber

/-- Blanks of every kind. -/
def isBlank (c : Nat) : Bool := whiteSpace.contains c

/-- Characters that occur inside words: letters, marks, digits, connectors and joiners. -/
def isWordChar (c : Nat) : Bool :=
  isAlphabetic c ||
    (match Category.of c with
      | .nonspacingMark | .spacingMark | .enclosingMark | .decimalNumber
      | .connectorPunctuation => true
      | _ => c == 0x200C || c == 0x200D)

/-- Characters that extend the character before them. -/
def isGraphemeExtend (c : Nat) : Bool :=
  match Category.of c with
  | .nonspacingMark | .enclosingMark => true
  | _ => otherGraphemeExtend.contains c

/-- Characters with a visible form, and the plain space. -/
def isPrintable (c : Nat) : Bool :=
  c == 0x20 ||
    (match Category.of c with
      | .control | .format | .surrogate | .privateUse | .unassigned
      | .lineSeparator | .paragraphSeparator | .spaceSeparator => false
      | _ => true)

end CellFilter.Property
