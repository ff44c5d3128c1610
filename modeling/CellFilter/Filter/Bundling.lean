import CellFilter.Filter.Basic

/-!
# Bundling payloads

Before a tree travels, the payloads of its leaves are moved into the bundle of the outermost group,
one for each schema name.  Inside a group, the leaves give their payloads first; then the bundles of
the inner groups are merged in.  Whenever the name of a payload is taken by another payload, it
stays with its leaf, or goes back to the leaves that it came from.  After the journey, leaves
without a payload take it from the bundles around them.
-/

namespace CellFilter

namespace ColumnPredicate

/-- The predicate without its payload. -/
def withoutPayload (p : ColumnPredicate) : ColumnPredicate := { p with payload? := none }

/-- The predicate with a payload. -/
def withPayload (p : ColumnPredicate) (payload : Bytes) : ColumnPredicate :=
  { p with payload? := some payload }

/-- Moves the payload of a predicate into a bundle; it stays if its name is taken by another one.
An empty payload is dropped. -/
def hoist (p : ColumnPredicate) (bundle : Bundle) : ColumnPredicate × Bundle :=
  match p.payload? with
  | none => (p, bundle)
  | some payload =>
    if payload.isEmpty then (p.withoutPayload, bundle)
    else match bundle.get? p.key.name with
      | none => (p.withoutPayload, bundle.insert p.key.name payload)
      | some bundled => if bundled = payload then (p.withoutPayload, bundle) else (p, bundle)

/-- Gives a payload to a predicate of that schema name that has none. -/
def restore (p : ColumnPredicate) (name : String) (payload : Bytes) : ColumnPredicate :=
  if p.payload?.isNone && p.key.name == name then p.withPayload payload else p

/-- Takes the payload from a bundle if the predicate has none that is not empty. -/
def receive (p : ColumnPredicate) (bundle : Bundle) : ColumnPredicate :=
  if p.payload?.all List.isEmpty then
    match (bundle.get? p.key.name).filter fun payload => !payload.isEmpty with
    | some payload => p.withPayload payload
    | none => p
  else p

end ColumnPredicate

namespace Filter

mutual

/-- Gives a payload back to the predicates of its name that have none. -/
def restore (name : String) (payload : Bytes) : Filter → Filter
  | .column p => .column (p.restore name payload)
  | .group op filters bundle => .group op (restoreAll name payload filters) bundle

/-- Gives a payload back to predicates in a list of filters. -/
def restoreAll (name : String) (payload : Bytes) : List Filter → List Filter
  | [] => []
  | f :: rest => restore name payload f :: restoreAll name payload rest

end

/-- Merges the entries of an inner group into the bundle of the outer one.  Payloads whose names are
taken go back to the leaves of the inner group. -/
def mergeEntries (filters : List Filter) (bundle : Bundle) :
    List (String × Bytes) → List Filter × Bundle
  | [] => (filters, bundle)
  | (name, payload) :: rest =>
    match bundle.get? name with
    | none => mergeEntries filters (bundle.insert name payload) rest
    | some bundled =>
      if bundled = payload then mergeEntries filters bundle rest
      else mergeEntries (restoreAll name payload filters) bundle rest

/-- Merges the bundles of all inner groups of a list into the bundle of the outer one. -/
def mergeBundles (bundle : Bundle) : List Filter → List Filter × Bundle
  | [] => ([], bundle)
  | .column p :: rest =>
    let (others, bundle) := mergeBundles bundle rest
    (.column p :: others, bundle)
  | .group op filters inner :: rest =>
    let (filters, bundle) := mergeEntries filters bundle inner.entries
    let (others, bundle) := mergeBundles bundle rest
    (.group op filters .empty :: others, bundle)

mutual

/-- Moves payloads out of a filter: those of a predicate into the bundle around it, those inside a
group into its own bundle. -/
def hoist (bundle : Bundle) : Filter → Filter × Bundle
  | .column p =>
    let (p, bundle) := p.hoist bundle
    (.column p, bundle)
  | .group op filters inner =>
    let (hoisted, own) := hoistAll inner filters
    let (merged, own) := mergeBundles own hoisted
    (.group op merged own, bundle)

/-- Moves payloads out of the filters of a list, from the first to the last. -/
def hoistAll (bundle : Bundle) : List Filter → List Filter × Bundle
  | [] => ([], bundle)
  | f :: rest =>
    let (f, bundle) := hoist bundle f
    let (others, bundle) := hoistAll bundle rest
    (f :: others, bundle)

end

mutual

/-- Hands the payloads of a bundle to the predicates that have none. -/
def distribute (bundle : Bundle) : Filter → Filter
  | .column p => .column (p.receive bundle)
  | .group op filters inner => .group op (distributeAll bundle filters) inner

/-- Hands the payloads of a bundle to predicates in a list of filters. -/
def distributeAll (bundle : Bundle) : List Filter → List Filter
  | [] => []
  | f :: rest => distribute bundle f :: distributeAll bundle rest

end

end Filter

namespace PredicateGroup

/-- The group with every payload moved into its bundle, as far as the names allow. -/
def deduplicated (group : PredicateGroup) : PredicateGroup :=
  let (hoisted, bundle) := Filter.hoistAll group.bundle group.filters
  let (filters, bundle) := Filter.mergeBundles bundle hoisted
  ⟨group.operator, filters, bundle⟩

end PredicateGroup

end CellFilter
