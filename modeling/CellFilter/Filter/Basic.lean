import CellFilter.Predicate.Basic

/-!
# Filters

A filter is a tree: its leaves are column predicates, and a group joins filters by a conjunction or
a disjunction.  A group may hold a bundle, the payloads that its leaves travel without, by the names
of their schemas.
-/

namespace CellFilter

/-- How the filters of a group are joined. -/
inductive Operator where
  /-- Every filter has to pass. -/
  | and
  /-- Some filter has to pass. -/
  | or
  deriving DecidableEq, Repr

namespace Operator

/-- The number of an operator on the wire. -/
def tag : Operator → UInt8
  | .and => 0
  | .or => 1

/-- The operator with a number. -/
def ofTag (n : UInt8) : Except FilterError Operator :=
  match n with
  | 0 => .ok .and
  | 1 => .ok .or
  | other => .error (.unknownOperator other)

@[simp] theorem ofTag_tag (op : Operator) : ofTag op.tag = .ok op := by
  cases op <;> rfl

/-- The name of an operator. -/
def name : Operator → String
  | .and => "And"
  | .or => "Or"

end Operator

/-- Payloads by the names of their schemas, in the order of the bytes of the names. -/
structure Bundle where
  entries : List (String × Bytes)
  deriving DecidableEq

namespace Bundle

/-- The bundle without any payload. -/
def empty : Bundle := ⟨[]⟩

/-- The payload of a name. -/
def get? (bundle : Bundle) (name : String) : Option Bytes := bundle.entries.lookup name

/-- Puts an entry into entries that are in order. -/
def insertEntry (name : String) (payload : Bytes) : List (String × Bytes) → List (String × Bytes)
  | [] => [(name, payload)]
  | (n, p) :: rest =>
    match Scalar.compareText name n with
    | .lt => (name, payload) :: (n, p) :: rest
    | .eq => (name, payload) :: rest
    | .gt => (n, p) :: insertEntry name payload rest

/-- Puts a payload under a name, in place of an earlier one. -/
def insert (bundle : Bundle) (name : String) (payload : Bytes) : Bundle :=
  ⟨insertEntry name payload bundle.entries⟩

/-- The names in order. -/
def names (bundle : Bundle) : List String := bundle.entries.map Prod.fst

end Bundle

/-- A tree of predicates. -/
inductive Filter where
  | column (predicate : ColumnPredicate)
  | group (operator : Operator) (filters : List Filter) (bundle : Bundle)

/-- A group of filters, the root of a tree that travels. -/
structure PredicateGroup where
  operator : Operator
  filters : List Filter
  bundle : Bundle

namespace Filter

mutual

/-- Equality of filters, of predicates as of values. -/
def valueEq : Filter → Filter → Bool
  | .column a, .column b => a.valueEq b
  | .group op as bundle, .group op' bs bundle' => op == op' && allEq as bs && bundle == bundle'
  | _, _ => false

/-- Equality of lists of filters. -/
def allEq : List Filter → List Filter → Bool
  | [], [] => true
  | a :: as, b :: bs => a.valueEq b && allEq as bs
  | _, _ => false

end

mutual

/-- The number of predicates in a filter. -/
def leafCount : Filter → Nat
  | .column _ => 1
  | .group _ filters _ => leafCounts filters

/-- The number of predicates in filters. -/
def leafCounts : List Filter → Nat
  | [] => 0
  | f :: rest => f.leafCount + leafCounts rest

end

end Filter

namespace PredicateGroup

/-- A group of filters, with nothing in its bundle. -/
def of (operator : Operator) (filters : List Filter) : PredicateGroup :=
  ⟨operator, filters, .empty⟩

/-- Adds a filter at the end. -/
def push (group : PredicateGroup) (filter : Filter) : PredicateGroup :=
  { group with filters := group.filters ++ [filter] }

/-- The group as a filter. -/
def toFilter (group : PredicateGroup) : Filter :=
  .group group.operator group.filters group.bundle

/-- Equality of groups, of predicates as of values. -/
def valueEq (a b : PredicateGroup) : Bool := a.toFilter.valueEq b.toFilter

/-- Whether there are no filters. -/
def isEmpty (group : PredicateGroup) : Bool := group.filters.isEmpty

/-- The number of predicates at any depth. -/
def leafCount (group : PredicateGroup) : Nat := Filter.leafCounts group.filters

end PredicateGroup

end CellFilter
