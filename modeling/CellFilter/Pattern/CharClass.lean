import CellFilter.Text.Folding
import CellFilter.Text.Property
import CellFilter.Text.Script

/-!
# Character classes

The sets of characters that a pattern can name: ranges, named properties, and what set operations
make of them.  A class is kept as an expression and evaluated one code point at a time.
-/

namespace CellFilter.Pattern

/-- A named property of code points. -/
inductive NamedSet where
  | digit
  | blank
  | wordChar
  | alphabetic
  | uppercase
  | lowercase
  | cased
  | caseIgnorable
  | graphemeExtend
  | any
  /-- Some general categories. -/
  | categories (members : List Category)
  /-- Every code point that is assigned. -/
  | assigned
  | script (members : CharSet)

/-- Whether a code point has a named property. -/
def NamedSet.contains : NamedSet → Nat → Bool
  | .digit, c => Property.isDigit c
  | .blank, c => Property.isBlank c
  | .wordChar, c => Property.isWordChar c
  | .alphabetic, c => Property.isAlphabetic c
  | .uppercase, c => Property.isUppercase c
  | .lowercase, c => Property.isLowercase c
  | .cased, c => LetterCase.cased.contains c
  | .caseIgnorable, c => LetterCase.caseIgnorable.contains c
  | .graphemeExtend, c => Property.isGraphemeExtend c
  | .any, _ => true
  | .categories members, c => members.contains (Category.of c)
  | .assigned, c => Category.of c != .unassigned
  | .script members, c => members.contains c

/-- A set of characters. -/
inductive CharClass where
  | nothing
  | range (first last : Nat)
  | named (set : NamedSet)
  | negated (a : CharClass)
  /-- Everything that differs from a member in case only. -/
  | folded (a : CharClass)
  /-- The same for the letters of ASCII alone. -/
  | asciiFolded (a : CharClass)
  | union (a b : CharClass)
  | intersection (a b : CharClass)
  | difference (a b : CharClass)
  | symmetricDifference (a b : CharClass)

/-- The letters of ASCII. -/
def asciiLetters : CharSet := [(65, 90), (97, 122)]

/-- Whether a code point belongs to a class. -/
def CharClass.contains : CharClass → Nat → Bool
  | .nothing, _ => false
  | .range first last, c => decide (first ≤ c) && decide (c ≤ last)
  | .named set, c => set.contains c
  | .negated a, c => !a.contains c
  | .folded a, c => (Folding.variants c).any a.contains
  | .asciiFolded a, c =>
    a.contains c || (asciiLetters.contains c && a.contains (if c < 97 then c + 32 else c - 32))
  | .union a b, c => a.contains c || b.contains c
  | .intersection a b, c => a.contains c && b.contains c
  | .difference a b, c => a.contains c && !b.contains c
  | .symmetricDifference a b, c => a.contains c != b.contains c

namespace CharClass

/-- The class of one character. -/
def single (c : Char) : CharClass := .range c.toNat c.toNat

/-- The union of ranges. -/
def ofRanges : List (Char × Char) → CharClass
  | [] => .nothing
  | [r] => .range r.1.toNat r.2.toNat
  | r :: rest => .union (.range r.1.toNat r.2.toNat) (ofRanges rest)

/-- The digits of ASCII. -/
def asciiDigit : CharClass := ofRanges [('0', '9')]

/-- The blanks of ASCII. -/
def asciiBlank : CharClass := ofRanges [('\t', '\r'), (' ', ' ')]

/-- The word characters of ASCII. -/
def asciiWord : CharClass := ofRanges [('0', '9'), ('A', 'Z'), ('_', '_'), ('a', 'z')]

/-- The classes of ASCII characters that have a name between colons. -/
def ascii? : String → Option CharClass
  | "alnum" => some (ofRanges [('0', '9'), ('A', 'Z'), ('a', 'z')])
  | "alpha" => some (ofRanges [('A', 'Z'), ('a', 'z')])
  | "ascii" => some (ofRanges [('\x00', '\x7f')])
  | "blank" => some (ofRanges [('\t', '\t'), (' ', ' ')])
  | "cntrl" => some (ofRanges [('\x00', '\x1f'), ('\x7f', '\x7f')])
  | "digit" => some asciiDigit
  | "graph" => some (ofRanges [('!', '~')])
  | "lower" => some (ofRanges [('a', 'z')])
  | "print" => some (ofRanges [(' ', '~')])
  | "punct" => some (ofRanges [('!', '/'), (':', '@'), ('[', '\x60'), ('\x7b', '~')])
  | "space" => some asciiBlank
  | "upper" => some (ofRanges [('A', 'Z')])
  | "word" => some asciiWord
  | "xdigit" => some (ofRanges [('0', '9'), ('A', 'F'), ('a', 'f')])
  | _ => none

/-- A name without case, blanks, underscores and hyphens. -/
def looseName (name : String) : String :=
  String.ofList ((name.toList.filter fun c => !(c == ' ' || c == '_' || c == '-')).map Char.toLower)

/-- Categories by their names, grouped ones included. -/
def categories? (name : String) : Option (List Category) :=
  match name with
  | "lu" | "uppercaseletter" => some [.uppercaseLetter]
  | "ll" | "lowercaseletter" => some [.lowercaseLetter]
  | "lt" | "titlecaseletter" => some [.titlecaseLetter]
  | "lm" | "modifierletter" => some [.modifierLetter]
  | "lo" | "otherletter" => some [.otherLetter]
  | "lc" | "casedletter" => some casedLetter
  | "l" | "letter" => some (casedLetter ++ [.modifierLetter, .otherLetter])
  | "mn" | "nonspacingmark" => some [.nonspacingMark]
  | "mc" | "spacingmark" => some [.spacingMark]
  | "me" | "enclosingmark" => some [.enclosingMark]
  | "m" | "mark" | "combiningmark" => some [.nonspacingMark, .spacingMark, .enclosingMark]
  | "nd" | "decimalnumber" | "digit" => some [.decimalNumber]
  | "nl" | "letternumber" => some [.letterNumber]
  | "no" | "othernumber" => some [.otherNumber]
  | "n" | "number" => some [.decimalNumber, .letterNumber, .otherNumber]
  | "pc" | "connectorpunctuation" => some [.connectorPunctuation]
  | "pd" | "dashpunctuation" => some [.dashPunctuation]
  | "ps" | "openpunctuation" => some [.openPunctuation]
  | "pe" | "closepunctuation" => some [.closePunctuation]
  | "pi" | "initialpunctuation" => some [.initialPunctuation]
  | "pf" | "finalpunctuation" => some [.finalPunctuation]
  | "po" | "otherpunctuation" => some [.otherPunctuation]
  | "p" | "punctuation" | "punct" =>
    some [.connectorPunctuation, .dashPunctuation, .openPunctuation, .closePunctuation,
      .initialPunctuation, .finalPunctuation, .otherPunctuation]
  | "sm" | "mathsymbol" => some [.mathSymbol]
  | "sc" | "currencysymbol" => some [.currencySymbol]
  | "sk" | "modifiersymbol" => some [.modifierSymbol]
  | "so" | "othersymbol" => some [.otherSymbol]
  | "s" | "symbol" => some [.mathSymbol, .currencySymbol, .modifierSymbol, .otherSymbol]
  | "zs" | "spaceseparator" => some [.spaceSeparator]
  | "zl" | "lineseparator" => some [.lineSeparator]
  | "zp" | "paragraphseparator" => some [.paragraphSeparator]
  | "z" | "separator" => some [.spaceSeparator, .lineSeparator, .paragraphSeparator]
  | "cc" | "control" | "cntrl" => some [.control]
  | "cf" | "format" => some [.format]
  | "cs" | "surrogate" => some [.surrogate]
  | "co" | "privateuse" => some [.privateUse]
  | "cn" | "unassigned" => some [.unassigned]
  | "c" | "other" => some [.control, .format, .surrogate, .privateUse, .unassigned]
  | _ => none
where
  casedLetter : List Category := [.uppercaseLetter, .lowercaseLetter, .titlecaseLetter]

/-- A general category by name, and the names for all, all assigned and all ASCII characters. -/
def category? (name : String) : Option CharClass :=
  match name with
  | "any" => some (.named .any)
  | "assigned" => some (.named .assigned)
  | "ascii" => some (.range 0 0x7F)
  | _ => (categories? name).map fun members => .named (.categories members)

/-- A script by its name or abbreviation. -/
def script? (name : String) : Option CharClass :=
  (Script.scripts.find? fun s => looseName s.1 == name || looseName s.2.1 == name).map
    fun s => .named (.script s.2.2)

/-- A yes-or-no property by name. -/
def binary? : String → Option CharClass
  | "alphabetic" | "alpha" => some (.named .alphabetic)
  | "uppercase" | "upper" => some (.named .uppercase)
  | "lowercase" | "lower" => some (.named .lowercase)
  | "whitespace" | "wspace" | "space" => some (.named .blank)
  | "cased" => some (.named .cased)
  | "caseignorable" | "ci" => some (.named .caseIgnorable)
  | "graphemeextend" | "grext" => some (.named .graphemeExtend)
  | "asciihexdigit" | "ahex" => some (ofRanges [('0', '9'), ('A', 'F'), ('a', 'f')])
  | _ => none

/-- A property by name: yes-or-no properties first, then categories, then scripts. -/
def property? (name : String) : Option CharClass :=
  let name := looseName name
  let name := if name.startsWith "is" then (name.drop 2).toString else name
  let binary := if name == "cf" || name == "sc" || name == "lc" then none else binary? name
  (binary.orElse fun _ => category? name).orElse fun _ => script? name

/-- The characters for which a named property has a value. -/
def propertyValue? (property value : String) : Option CharClass :=
  match looseName property with
  | "gc" | "generalcategory" => category? (looseName value)
  | "sc" | "script" | "scx" | "scriptextensions" => script? (looseName value)
  | _ => none

end CharClass

end CellFilter.Pattern
