import CellFilter.Comparison
import CellFilter.Pattern.Parser

/-!
# Byte comparators

A comparator replaces the comparison with a typed operand by a comparison over the canonical bytes
of a value.  It travels as the name of its kind and a state, and a registry tells what rebuilds a
comparator of a kind from its state.  Four kinds are built in; a caller may bring along others.
-/

namespace CellFilter

/-- A comparison over bytes, as far as predicates know it. -/
structure Comparator where
  /-- The name under which the registry finds what rebuilds it. -/
  kind : String
  /-- What it is rebuilt from. -/
  state : Bytes
  /-- The signed result of comparing with a cell. -/
  compareTo : Bytes → Int
  /-- How it is shown to a developer. -/
  description : String

/-- Two comparators are the same when they travel the same way. -/
instance : BEq Comparator := ⟨fun a b => a.kind == b.kind && a.state == b.state⟩

/-- Rebuilds a comparator from its state. -/
abbrev ComparatorConstructor := Bytes → Except FilterError Comparator

/-- The kinds of comparators that are built in. -/
inductive ComparatorKind where
  | binary
  | binaryPrefix
  | substring
  | pattern
  deriving DecidableEq, Repr

namespace ComparatorKind

/-- All built-in kinds. -/
def all : List ComparatorKind := [.binary, .binaryPrefix, .substring, .pattern]

/-- The name of a kind on the wire. -/
def name : ComparatorKind → String
  | .binary => "binary"
  | .binaryPrefix => "binary_prefix"
  | .substring => "substring"
  | .pattern => "regex"

end ComparatorKind

namespace Comparator

/-- Compares a fixed value with the cell, byte by byte: where the value stands relative to it. -/
def binary (value : Bytes) : Comparator where
  kind := ComparatorKind.binary.name
  state := value
  compareTo cell := orderSign (value.compare cell)
  description := braced "BinaryComparator" [("value", describeBytes value)]

/-- Compares a fixed value with the beginning of the cell. -/
def binaryPrefix (value : Bytes) : Comparator where
  kind := ComparatorKind.binaryPrefix.name
  state := value
  compareTo cell := orderSign (value.compare (cell.take value.length))
  description := braced "BinaryPrefixComparator" [("value", describeBytes value)]

@[simp] theorem compareTo_binary (value cell : Bytes) :
    (binary value).compareTo cell = orderSign (value.compare cell) := rfl

@[simp] theorem compareTo_binaryPrefix (value cell : Bytes) : (binaryPrefix value).compareTo cell =
    orderSign (value.compare (cell.take value.length)) := rfl

/-- Whether one list of characters occurs in another. -/
def isInfix (needle : List Char) : List Char → Bool
  | [] => needle.isEmpty
  | c :: rest => needle.isPrefixOf (c :: rest) || isInfix needle rest

/-- Looks for a text in the cell, whatever the case: 0 for a cell that contains it and 1 for
another.  The needle is in lower case. -/
def substring (needle : String) : Comparator where
  kind := ComparatorKind.substring.name
  state := Utf8.encode needle
  compareTo cell :=
    if isInfix needle.toList (LetterCase.lowercase (Utf8.decodeLossy cell)).toList then 0 else 1
  description := braced "SubstringComparator" [("needle", Quoted.showText needle)]

@[simp] theorem compareTo_substring (needle : String) (cell : Bytes) :
    (substring needle).compareTo cell = if isInfix needle.toList
      (LetterCase.lowercase (Utf8.decodeLossy cell)).toList then 0 else 1 := by
  rw [substring]

/-- Looks for a pattern in the cell: 0 for a cell in which it occurs and 1 for another.  It travels
as the text that the pattern was read from. -/
def pattern (source : String) (expr : Pattern.Expr) : Comparator where
  kind := ComparatorKind.pattern.name
  state := Utf8.encode source
  compareTo cell := if expr.occursIn (Utf8.decodeLossy cell).toList then 0 else 1
  description :=
    braced "RegexComparator" [("pattern", "Regex(" ++ Quoted.showText source ++ ")")]

/-- A substring comparator; case does not matter. -/
def ofSubstring (text : String) : Comparator := substring (LetterCase.lowercase text)

/-- A pattern comparator, if the text is a pattern. -/
def ofPattern (text : String) : Except FilterError Comparator :=
  match Pattern.Expr.parse? text with
  | some expr => .ok (pattern text expr)
  | none => .error .invalidPattern

end Comparator

/-- Rebuilds a comparator of a built-in kind; texts have to be well formed. -/
def ComparatorKind.build (kind : ComparatorKind) : ComparatorConstructor := fun state =>
  let text : Except FilterError String :=
    match Utf8.decode state with
    | .ok s => .ok s
    | .error fault => .error (.malformedPayload (.invalidComparatorState fault))
  match kind with
  | .binary => .ok (.binary state)
  | .binaryPrefix => .ok (.binaryPrefix state)
  | .substring => text.map Comparator.ofSubstring
  | .pattern => text.bind Comparator.ofPattern

/-- The known names of kinds with what rebuilds their comparators, the latest registration of a name
first. -/
structure ComparatorRegistry where
  constructors : List (String × ComparatorConstructor)

namespace ComparatorRegistry

/-- No names at all. -/
def empty : ComparatorRegistry := ⟨[]⟩

/-- Registers a name, in place of an earlier registration of it. -/
def register (registry : ComparatorRegistry) (name : String) (rebuild : ComparatorConstructor) :
    ComparatorRegistry :=
  ⟨(name, rebuild) :: registry.constructors.filter fun entry => entry.1 != name⟩

/-- Every built-in kind under its own name. -/
def standard : ComparatorRegistry :=
  ComparatorKind.all.foldl (fun registry kind => registry.register kind.name kind.build) empty

/-- Rebuilds a comparator from the name of its kind and its state. -/
def build (registry : ComparatorRegistry) (name : String) (state : Bytes) :
    Except FilterError Comparator :=
  match registry.constructors.lookup name with
  | some rebuild => rebuild state
  | none => .error (.unknownComparator name)

/-- The known names in the order of their bytes. -/
def names (registry : ComparatorRegistry) : List String :=
  (registry.constructors.map Prod.fst).mergeSort fun a b => Scalar.compareText a b != .gt

end ComparatorRegistry

end CellFilter
