import CellFilter.Pattern.Expr

/-!
# Reading patterns

The usual notation for patterns: literals, classes in brackets with set operations, groups,
choices, greedy and reluctant repetitions, flags, and assertions.  Back references and look-around
are not part of it.  Reading fails as a whole or yields one pattern.
-/

namespace CellFilter.Pattern

/-- The flags in force at a place of the pattern. -/
structure Flags where
  ignoreCase : Bool := false
  multiLine : Bool := false
  dotAll : Bool := false
  crlf : Bool := false
  unicode : Bool := true
  ignoreBlanks : Bool := false

/-- What is left to read, the flags in force and the group names used so far. -/
structure ParseState where
  rest : List Char
  flags : Flags
  names : List (List Char)

/-- A step of reading. -/
abbrev Parse := StateT ParseState Option

namespace Parse

/-- Gives up. -/
def fail {α : Type} : Parse α := fun _ => none

/-- The next character, if there is one. -/
def peek : Parse (Option Char) := do return (← get).rest.head?

/-- Skips a comment up to the end of its line. -/
def dropComment (cs : List Char) : List Char := cs.dropWhile (· != '\n')

/-- Skips blanks and comments. -/
def dropBlanks : Nat → List Char → List Char
  | 0, cs => cs
  | fuel + 1, cs =>
    match cs.dropWhile fun c => Property.isBlank c.toNat with
    | '#' :: rest => dropBlanks fuel (dropComment rest)
    | other => other

/-- Skips blanks and comments where the flags allow them. -/
def skipBlanks : Parse Unit :=
  modify fun s =>
    if s.flags.ignoreBlanks then { s with rest := dropBlanks s.rest.length s.rest } else s

/-- Takes the next character. -/
def next : Parse Char := do
  match (← get).rest with
  | [] => fail
  | c :: rest => modify fun s => { s with rest := rest }; return c

/-- Takes the next character, and the blanks after it. -/
def nextSkipping : Parse Char := do
  let c ← next
  skipBlanks
  return c

/-- Takes a given text if it comes next. -/
def accept (text : String) : Parse Bool := do
  let s ← get
  let cs := text.toList
  if cs.isPrefixOf s.rest then
    set { s with rest := s.rest.drop cs.length }
    return true
  else return false

/-- Demands a given character. -/
def expect (c : Char) : Parse Unit := do
  if (← next) == c then return () else fail

/-- Takes characters while they satisfy a condition. -/
def takeWhile (p : Char → Bool) : Parse (List Char) := do
  let s ← get
  set { s with rest := s.rest.dropWhile p }
  return s.rest.takeWhile p

/-- A decimal number of at most 32 bits, blanks around it allowed. -/
def decimal : Parse Nat := do
  let _ ← takeWhile fun c => Property.isBlank c.toNat
  let digits ← takeWhile Char.isDigit
  let _ ← takeWhile fun c => Property.isBlank c.toNat
  let n := digits.foldl (fun n c => 10 * n + (c.toNat - 48)) 0
  if digits.isEmpty || UInt32.size ≤ n then fail else return n

/-- The character of a code point. -/
def scalarValue (n : Nat) : Parse Char :=
  if n < 0xD800 ∨ (0xDFFF < n ∧ n < 0x110000) then return Char.ofNat n else fail

/-- The value of hexadecimal digits. -/
def hexValue (digits : List Char) : Parse Nat := do
  if digits.isEmpty || 8 < digits.length then fail else
  match digits.mapM Bytes.hexValue? with
  | some ds => return ds.foldl (fun n d => 16 * n + d) 0
  | none => fail

/-- So many hexadecimal digits. -/
def hexDigits : Nat → Parse (List Char)
  | 0 => return []
  | n + 1 => do
    let c ← nextSkipping
    return c :: (← hexDigits n)

/-- A code point in braces or with a fixed number of digits. -/
def hexEscape (width : Nat) : Parse Char := do
  skipBlanks
  if ← accept "\x7b" then
    skipBlanks
    let digits ← takeWhile (· != '\x7d')
    expect '\x7d'
    let ignore := (← get).flags.ignoreBlanks
    let digits := if ignore then digits.filter fun c => !Property.isBlank c.toNat else digits
    scalarValue (← hexValue digits)
  else scalarValue (← hexValue (← hexDigits width))

/-- Cuts a text at the first occurrence of a mark. -/
def cut? (mark : List Char) : List Char → Option (List Char × List Char)
  | [] => none
  | c :: cs =>
    if mark.isPrefixOf (c :: cs) then some ([], (c :: cs).drop mark.length)
    else (cut? mark cs).map fun r => (c :: r.1, r.2)

/-- The class of a property given in braces. -/
def propertyOf (body : List Char) (negated : Bool) : Option CharClass :=
  let text := String.ofList
  let negate (on : Bool) (c : CharClass) : CharClass := if on then .negated c else c
  match cut? ['!', '='] body with
  | some (name, value) =>
    (CharClass.propertyValue? (text name) (text value)).map (negate (!negated))
  | none =>
    match (cut? [':'] body).orElse fun _ => cut? ['='] body with
    | some (name, value) =>
      (CharClass.propertyValue? (text name) (text value)).map (negate negated)
    | none => (CharClass.property? (text body)).map (negate negated)

/-- What an escape can stand for. -/
inductive Item where
  | literal (c : Char)
  /-- A single byte above the ASCII range, which only patterns over bytes can hold. -/
  | byte
  | set (members : CharClass)
  | look (condition : Assertion)

/-- Closes a class under case where the flags ask for it. -/
def foldCase (flags : Flags) (c : CharClass) : CharClass :=
  if !flags.ignoreCase then c else if flags.unicode then .folded c else .asciiFolded c

/-- A property after its letter: one more letter or a name in braces. -/
def property (negated : Bool) : Parse Item := do
  let flags := (← get).flags
  skipBlanks
  let c ← next
  let body ←
    if c == '\x7b' then do
      let body ← takeWhile (· != '\x7d')
      expect '\x7d'
      pure (if flags.ignoreBlanks then body.filter fun c => !Property.isBlank c.toNat else body)
    else if c == '\\' then fail
    else do
      skipBlanks
      pure [c]
  if !flags.unicode then fail else
  match propertyOf body false with
  | none => fail
  | some set =>
    let folded := foldCase flags set
    return .set (if negated then .negated folded else folded)

/-- The names of word boundaries in braces. -/
def boundaryOf? (unicode : Bool) : String → Option Assertion
  | "start" => some (.wordStart unicode)
  | "end" => some (.wordEnd unicode)
  | "start-half" => some (.wordStartHalf unicode)
  | "end-half" => some (.wordEndHalf unicode)
  | _ => none

/-- A word boundary, with the kind in braces if one follows. -/
def boundary (unicode : Bool) : Parse Item := do
  let s ← get
  let isName (c : Char) : Bool := c.isAlpha || c == '-'
  match s.rest with
  | '\x7b' :: c :: rest =>
    if isName c then do
      let name := (c :: rest).takeWhile isName
      let after := (c :: rest).dropWhile isName
      match after, boundaryOf? unicode (String.ofList name) with
      | '\x7d' :: tail, some condition =>
        set { s with rest := tail }
        return .look condition
      | _, _ => fail
    else return .look (.wordBoundary unicode)
  | ['\x7b'] => fail
  | _ => return .look (.wordBoundary unicode)

/-- The characters that an escape makes literal. -/
def isEscapable (c : Char) : Bool :=
  decide (c.toNat < 128) && !c.isAlphanum && c != '<' && c != '>'

/-- A class given by a letter, for all characters or for ASCII. -/
def shorthand (unicode : Bool) (wide : NamedSet) (narrow : CharClass) (negated : Bool) : Item :=
  let c := if unicode then .named wide else narrow
  .set (if negated then .negated c else c)

/-- What follows a backslash. -/
def escape : Parse Item := do
  let unicode := (← get).flags.unicode
  let c ← next
  match c with
  | 'x' => do
    let c ← hexEscape 2
    return if !unicode && 0x7F < c.toNat && c.toNat < 0x100 then .byte else .literal c
  | 'u' => do return .literal (← hexEscape 4)
  | 'U' => do return .literal (← hexEscape 8)
  | 'p' => property false
  | 'P' => property true
  | 'd' => return shorthand unicode .digit CharClass.asciiDigit false
  | 'D' => return shorthand unicode .digit CharClass.asciiDigit true
  | 's' => return shorthand unicode .blank CharClass.asciiBlank false
  | 'S' => return shorthand unicode .blank CharClass.asciiBlank true
  | 'w' => return shorthand unicode .wordChar CharClass.asciiWord false
  | 'W' => return shorthand unicode .wordChar CharClass.asciiWord true
  | 'a' => return .literal '\x07'
  | 'f' => return .literal '\x0c'
  | 't' => return .literal '\t'
  | 'n' => return .literal '\n'
  | 'r' => return .literal '\r'
  | 'v' => return .literal '\x0b'
  | 'A' => return .look .startText
  | 'z' => return .look .endText
  | 'b' => boundary unicode
  | 'B' => return .look (.notWordBoundary unicode)
  | '<' => return .look (.wordStart unicode)
  | '>' => return .look (.wordEnd unicode)
  | c => if isEscapable c then return .literal c else fail

/-- A class of characters above ASCII needs patterns over characters. -/
def checkAscii (c : CharClass) : Parse CharClass := do
  if (← get).flags.unicode then return c
  else if (List.range 128).any fun i => c.contains (128 + i) then fail else return c

/-- A named ASCII class between colons; nothing is read if there is none. -/
def asciiClass : Parse (Option CharClass) := do
  let s ← get
  match s.rest with
  | '[' :: ':' :: rest =>
    let (negated, rest) := match rest with
      | '^' :: more => (true, more)
      | other => (false, other)
    match cut? [':', ']'] rest with
    | some (name, tail) =>
      match CharClass.ascii? (String.ofList name) with
      | some c =>
        let c := foldCase s.flags c
        set { s with rest := tail }
        return some (if negated then .negated c else c)
      | none => return none
    | none => return none
  | _ => return none

/-- One member of a bracketed class: a character or an escape. -/
def classItem : Parse Item := do
  let c ← nextSkipping
  if c == '\\' then
    let item ← escape
    skipBlanks
    return item
  else return .literal c

/-- An item that stands for itself. -/
def Item.toClass : Item → Parse CharClass
  | .literal c => do
    if !(← get).flags.unicode && 0x7F < c.toNat then fail else return .single c
  | .byte => fail
  | .set members => return members
  | .look _ => fail

/-- A range, or a single item. -/
def classRange : Parse CharClass := do
  let first ← classItem
  let s ← get
  let afterDash := match s.rest with
    | '-' :: rest => if s.flags.ignoreBlanks then dropBlanks rest.length rest else rest
    | _ => []
  match s.rest, afterDash with
  | [], _ => fail
  | '-' :: _, [] => fail
  | '-' :: _, c :: _ =>
    if c == ']' || c == '-' then first.toClass else do
      let _ ← nextSkipping
      let last ← classItem
      match first, last with
      | .literal a, .literal b =>
        if !(← get).flags.unicode && 0x7F < b.toNat then fail
        else if a.toNat ≤ b.toNat then return .range a.toNat b.toNat else fail
      | _, _ => fail
  | _, _ => first.toClass

/-- An operator between the parts of a class. -/
inductive SetOp where
  | intersection
  | difference
  | symmetricDifference

/-- Joins two parts of a class, each closed under case first. -/
def SetOp.join (flags : Flags) (op : SetOp) (a b : CharClass) : CharClass :=
  let a := foldCase flags a
  let b := foldCase flags b
  match op with
  | .intersection => .intersection a b
  | .difference => .difference a b
  | .symmetricDifference => .symmetricDifference a b

/-- Finishes the part read last. -/
def closePart (flags : Flags) (before : Option (CharClass × SetOp)) (part : CharClass) :
    CharClass :=
  match before with
  | none => part
  | some (a, op) => op.join flags a part

/-- Leading hyphens, which are literal. -/
def leadingDashes : Nat → Parse Bool
  | 0 => return false
  | fuel + 1 => do
    if (← peek) == some '-' then
      let _ ← nextSkipping
      let _ ← leadingDashes fuel
      return true
    else return false

mutual

/-- A bracketed class after its opening bracket. -/
def bracket : Nat → Parse CharClass
  | 0 => fail
  | fuel + 1 => do
    let flags := (← get).flags
    skipBlanks
    let negated ← accept "^"
    skipBlanks
    let dashes ← leadingDashes fuel
    let start : CharClass := if dashes then .single '-' else .nothing
    let start ←
      if !dashes && (← peek) == some ']' then do
        let _ ← nextSkipping
        pure (CharClass.single ']')
      else pure start
    let members ← classBody fuel none start
    let members := foldCase flags members
    return if negated then .negated members else members

/-- The members of a class up to its closing bracket; `before` waits on the left of an operator
and `part` is the part being read. -/
def classBody : Nat → Option (CharClass × SetOp) → CharClass → Parse CharClass
  | 0, _, _ => fail
  | fuel + 1, before, part => do
    skipBlanks
    let s ← get
    let operator (op : SetOp) : Parse CharClass := do
      let _ ← next
      let _ ← next
      classBody fuel (some (closePart s.flags before part, op)) .nothing
    match s.rest with
    | [] => fail
    | ']' :: _ => do
      let _ ← next
      return closePart s.flags before part
    | '[' :: _ => do
      match ← asciiClass with
      | some c => classBody fuel before (.union part c)
      | none => do
        let _ ← next
        let inner ← bracket fuel
        classBody fuel before (.union part inner)
    | '&' :: '&' :: _ => operator .intersection
    | '-' :: '-' :: _ => operator .difference
    | '~' :: '~' :: _ => operator .symmetricDifference
    | _ => do
      let c ← classRange
      classBody fuel before (.union part c)

end

/-- A literal under the flags in force. -/
def literal (c : Char) : Parse Expr := do
  let flags := (← get).flags
  return .chars (foldCase flags (.single c))

/-- A dot under the flags in force. -/
def dot : Parse Expr := do
  let flags := (← get).flags
  if !flags.unicode then fail
  else if flags.dotAll then return .chars (.named .any)
  else if flags.crlf then
    return .chars (.negated (.union (.single '\n') (.single '\r')))
  else return .chars (.negated (.single '\n'))

/-- A character, class or assertion. -/
def primitive (fuel : Nat) : Parse Expr := do
  let flags := (← get).flags
  let c ← next
  match c with
  | '\\' =>
    match ← escape with
    | .literal c => literal c
    | .byte => fail
    | .set members => return .chars (← checkAscii members)
    | .look condition => return .look condition
  | '.' => dot
  | '^' =>
    return .look (if !flags.multiLine then .startText
      else if flags.crlf then .startLineCr else .startLine)
  | '$' =>
    return .look (if !flags.multiLine then .endText
      else if flags.crlf then .endLineCr else .endLine)
  | '[' => do return .chars (← checkAscii (← bracket fuel))
  | c => literal c

/-- Sets one flag. -/
def setFlag (flags : Flags) (on : Bool) : Char → Option Flags
  | 'i' => some { flags with ignoreCase := on }
  | 'm' => some { flags with multiLine := on }
  | 's' => some { flags with dotAll := on }
  | 'U' => some flags
  | 'u' => some { flags with unicode := on }
  | 'R' => some { flags with crlf := on }
  | 'x' => some { flags with ignoreBlanks := on }
  | _ => none

/-- Applies a list of flags, each at most once, those after a hyphen being switched off. -/
def applyFlags (flags : Flags) (seen : List Char) (on : Bool) : List Char → Option Flags
  | [] => if seen.head? == some '-' then none else some flags
  | c :: rest =>
    if seen.contains c then none
    else if c == '-' then applyFlags flags (c :: seen) false rest
    else do applyFlags (← setFlag flags on c) (c :: seen) on rest

/-- The name of a group up to its closing bracket. -/
def groupName : Parse Unit := do
  let name ← takeWhile (· != '>')
  expect '>'
  let isLetter (c : Char) : Bool := c == '_' || Property.isAlphabetic c.toNat
  let isNumber (c : Char) : Bool :=
    match Category.of c.toNat with
    | .decimalNumber | .letterNumber | .otherNumber => true
    | _ => false
  let isInner (c : Char) : Bool :=
    isLetter c || isNumber c || c == '.' || c == '[' || c == ']'
  let s ← get
  match name with
  | [] => fail
  | c :: rest =>
    if isLetter c && rest.all isInner && !s.names.contains name then
      set { s with names := name :: s.names }
    else fail

/-- A repetition count in braces. -/
def counts : Parse (Nat × Option Nat) := do
  skipBlanks
  let min ← decimal
  let range ←
    if ← accept "," then do
      skipBlanks
      if (← peek) == some '\x7d' then pure (min, none) else do
        let max ← decimal
        pure (min, some max)
    else pure (min, some min)
  expect '\x7d'
  match range with
  | (min, some max) => if min ≤ max then return range else fail
  | _ => return range

/-- Wraps an expression in the repetition operators that follow it. -/
def repetitions : Nat → Expr → Parse Expr
  | 0, _ => fail
  | fuel + 1, e => do
    skipBlanks
    let wrap (min : Nat) (max : Option Nat) : Parse Expr := do
      let _ ← accept "?"
      repetitions fuel (.repeated min max e)
    match ← peek with
    | some '?' => do let _ ← next; wrap 0 (some 1)
    | some '*' => do let _ ← next; wrap 0 none
    | some '+' => do let _ ← next; wrap 1 none
    | some '\x7b' => do
      let _ ← next
      let (min, max) ← counts
      skipBlanks
      wrap min max
    | _ => return e

/-- A sequence of expressions; one alone is not wrapped. -/
def sequence : List Expr → Expr
  | [] => .empty
  | [e] => e
  | es => es.foldr .seq .empty

mutual

/-- Choices up to a closing parenthesis or the end. -/
def alternation : Nat → Parse Expr
  | 0 => fail
  | fuel + 1 => do
    let first := sequence (← concatenation fuel)
    if ← accept "|" then
      return .alt first (← alternation fuel)
    else return first

/-- The members of a sequence. -/
def concatenation : Nat → Parse (List Expr)
  | 0 => fail
  | fuel + 1 => do
    skipBlanks
    match ← peek with
    | none => return []
    | some ')' => return []
    | some '|' => return []
    | some '(' => do
      let _ ← next
      match ← group fuel with
      | none => concatenation fuel
      | some e => do
        let e ← repetitions fuel e
        return e :: (← concatenation fuel)
    | some c =>
      if c == '?' || c == '*' || c == '+' || c == '\x7b' then fail else do
        let e ← primitive fuel
        let e ← repetitions fuel e
        return e :: (← concatenation fuel)

/-- What follows an opening parenthesis; `none` if it only sets flags. -/
def group : Nat → Parse (Option Expr)
  | 0 => fail
  | fuel + 1 => do
    let outer := (← get).flags
    skipBlanks
    let body : Parse (Option Expr) := do
      let e ← alternation fuel
      expect ')'
      modify fun s => { s with flags := outer }
      return some (.group e)
    let rest := (← get).rest
    if ['?', '='].isPrefixOf rest || ['?', '!'].isPrefixOf rest
        || ['?', '<', '='].isPrefixOf rest || ['?', '<', '!'].isPrefixOf rest then fail
    else if ← accept "?P<" then do
      groupName
      body
    else if ← accept "?<" then do
      groupName
      body
    else if ← accept "?" then do
      let marks ← takeWhile fun c => c != ':' && c != ')'
      match applyFlags outer [] true marks with
      | none => fail
      | some flags =>
        let close ← next
        modify fun s => { s with flags := flags }
        if close == ')' then (if marks.isEmpty then fail else return none) else body
    else body

end

end Parse

/-- How deeply the parts of a pattern may be nested. -/
def maxDepth : Nat := 250

/-- How many steps a pattern may have once its repetitions are written out. -/
def maxSize : Nat := 327680

/-- Reads a pattern. -/
def Expr.parse? (text : String) : Option Expr := do
  let cs := text.toList
  let (e, s) ← (Parse.alternation (4 * cs.length + 8)).run ⟨cs, {}, []⟩
  if s.rest.isEmpty && e.depth ≤ maxDepth && e.size ≤ maxSize then some e else none

end CellFilter.Pattern
