import CellFilter.Pattern.CharClass

/-!
# Patterns and the texts they occur in

A pattern relates the positions of a text: from a position it leads to every position where a
match that starts there may end.  A set of positions is a number whose bit `p` says whether `p`
belongs to it, so that one step of a pattern is a few operations on such numbers, and a pattern
occurs in a text when it leads from the set of all positions to a set that is not empty.
-/

namespace CellFilter.Pattern

/-- A condition on a position that takes up no character. -/
inductive Assertion where
  | startText
  | endText
  | startLine
  | endLine
  /-- Line ends are a carriage return, a line feed or both in that order. -/
  | startLineCr
  | endLineCr
  | wordBoundary (unicode : Bool)
  | notWordBoundary (unicode : Bool)
  | wordStart (unicode : Bool)
  | wordEnd (unicode : Bool)
  | wordStartHalf (unicode : Bool)
  | wordEndHalf (unicode : Bool)
  deriving DecidableEq, Repr

/-- A pattern. -/
inductive Expr where
  | empty
  | chars (members : CharClass)
  | look (condition : Assertion)
  | seq (a b : Expr)
  | alt (a b : Expr)
  /-- At least `min` times, and at most `max` times if there is a bound. -/
  | repeated (min : Nat) (max : Option Nat) (body : Expr)
  | group (body : Expr)

namespace Assertion

/-- Whether a code point is a word character. -/
def isWord (unicode : Bool) (c : Char) : Bool :=
  if unicode then Property.isWordChar c.toNat else CharClass.asciiWord.contains c.toNat

/-- Whether the condition holds between two characters; `none` stands for the end of the text. -/
def holds (condition : Assertion) (before after : Option Char) : Bool :=
  let word (unicode : Bool) (c : Option Char) : Bool := c.any (isWord unicode)
  match condition with
  | .startText => before.isNone
  | .endText => after.isNone
  | .startLine => before.isNone || before == some '\n'
  | .endLine => after.isNone || after == some '\n'
  | .startLineCr =>
    before.isNone || before == some '\n' || (before == some '\r' && after != some '\n')
  | .endLineCr =>
    after.isNone || after == some '\r' || (after == some '\n' && before != some '\r')
  | .wordBoundary u => word u before != word u after
  | .notWordBoundary u => word u before == word u after
  | .wordStart u => !word u before && word u after
  | .wordEnd u => word u before && !word u after
  | .wordStartHalf u => !word u before
  | .wordEndHalf u => !word u after

end Assertion

/-- The set of positions whose bits are listed, the first position first. -/
def positions : List Bool → Nat
  | [] => 0
  | b :: rest => (if b then 1 else 0) + 2 * positions rest

/-- The positions between the characters of a text, each with its neighbours. -/
def gaps (before : Option Char) : List Char → List (Option Char × Option Char)
  | [] => [(before, none)]
  | c :: rest => (before, some c) :: gaps (some c) rest

/-- A pattern with the positions of one text filled in. -/
inductive Plan where
  | stay
  /-- From a position of the set to the next one. -/
  | advance (from_ : Nat)
  /-- Only positions of the set. -/
  | keep (among : Nat)
  | seq (a b : Plan)
  | alt (a b : Plan)
  | repeated (min : Nat) (max : Option Nat) (body : Plan)

/-- Fills in the positions of a text. -/
def Expr.plan (text : List Char) : Expr → Plan
  | .empty => .stay
  | .chars members => .advance (positions (text.map fun c => members.contains c.toNat))
  | .look condition =>
    .keep (positions ((gaps none text).map fun g => condition.holds g.1 g.2))
  | .seq a b => .seq (a.plan text) (b.plan text)
  | .alt a b => .alt (a.plan text) (b.plan text)
  | .repeated min max body => .repeated min max (body.plan text)
  | .group body => body.plan text

/-- Applies `step` so many times. -/
def iterate (step : Nat → Nat) : Nat → Nat → Nat
  | 0, s => s
  | n + 1, s => if s = 0 then 0 else iterate step n (step s)

/-- What at most `rounds` applications of `step` reach from `fresh`, together with `seen`; a round
starts only from positions that are new. -/
def saturate (step : Nat → Nat) : (rounds : Nat) → (seen fresh : Nat) → Nat
  | 0, seen, _ => seen
  | rounds + 1, seen, fresh =>
    let next := step fresh
    let new := next ^^^ (next &&& seen)
    if new = 0 then seen else saturate step rounds (seen ||| new) new

/-- The positions that a plan leads to from a set of positions; `size` is their number. -/
def Plan.reach (size : Nat) : Plan → Nat → Nat
  | .stay, s => s
  | .advance from_, s => (s &&& from_) <<< 1
  | .keep among, s => s &&& among
  | .seq a b, s => b.reach size (a.reach size s)
  | .alt a b, s => a.reach size s ||| b.reach size s
  | .repeated min max body, s =>
    let start := iterate (body.reach size) min s
    match max with
    | none => saturate (body.reach size) size start start
    | some max => saturate (body.reach size) (Nat.min (max - min) size) start start

/-- Whether a pattern occurs anywhere in a text. -/
def Expr.occursIn (e : Expr) (text : List Char) : Bool :=
  let size := text.length + 1
  (e.plan text).reach size ((1 <<< size) - 1) != 0

/-- How deeply sequences, choices, repetitions and groups are nested. -/
def Expr.depth : Expr → Nat
  | .empty => 0
  | .chars _ => 0
  | .look _ => 0
  | .seq a b => max (a.depth + 1) b.depth
  | .alt a b => max (a.depth + 1) b.depth
  | .repeated _ _ body => body.depth + 1
  | .group body => body.depth + 1

/-- The number of steps that a pattern has once its repetitions are written out. -/
def Expr.size : Expr → Nat
  | .empty => 1
  | .chars _ => 1
  | .look _ => 1
  | .seq a b => a.size + b.size
  | .alt a b => 1 + a.size + b.size
  | .repeated min max body => 1 + (Nat.max min (max.getD (min + 1))) * body.size
  | .group body => 2 + body.size

end CellFilter.Pattern
