import CellFilter.Filter.Bundling
import CellFilter.Gzip.Member

/-!
# Encoded groups

A group travels compressed, after its length.  Inside come the operator, the filters, each after a
byte that tells predicates and groups apart, and the bundle.

    group  = length compressed (operator count filter* count entry*)
    filter = 1 predicate | 2 group
    entry  = name payload
-/

namespace CellFilter

namespace Bundle

/-- The bytes of a bundle. -/
def encode (bundle : Bundle) : Bytes :=
  Varint.encode bundle.entries.length ++
    bundle.entries.flatMap fun e => Frame.putText e.1 ++ Frame.putBytes e.2

/-- Reads an entry. -/
def readEntry : Reader (String × Bytes) := do
  let name ← Frame.text
  let payload ← Frame.bytes
  return (name, payload)

/-- Reads a bundle.  Empty payloads do not count; of several payloads of a name the last one
stays. -/
def read : Reader Bundle := do
  let entries ← Frame.many (← Frame.length) readEntry
  return entries.foldl
    (fun bundle e => if e.2.isEmpty then bundle else bundle.insert e.1 e.2) .empty

end Bundle

namespace Filter

/-- The byte in front of a predicate. -/
def columnTag : UInt8 := 1

/-- The byte in front of a group. -/
def groupTag : UInt8 := 2

/-- What is inside a group, given its encoded filters. -/
def groupBody (operator : Operator) (count : Nat) (filters : Bytes) (bundle : Bundle) : Bytes :=
  Frame.putByte operator.tag ++ Varint.encode count ++ filters ++ bundle.encode

/-- A group around its contents, compressed at a level. -/
def wrapGroup (level : Nat) (body : Bytes) : Bytes := Frame.putBytes (Gzip.compress body level)

mutual

/-- The bytes of a filter inside a group. -/
def encode (level : Nat) : Filter → Bytes
  | .column p => Frame.putByte columnTag ++ p.encode
  | .group op filters bundle =>
    Frame.putByte groupTag ++
      wrapGroup level (groupBody op filters.length (encodeAll level filters) bundle)

/-- The bytes of filters one after the other. -/
def encodeAll (level : Nat) : List Filter → Bytes
  | [] => []
  | f :: rest => f.encode level ++ encodeAll level rest

end

end Filter

namespace PredicateGroup

/-- What is inside an encoded group. -/
def body (level : Nat) (group : PredicateGroup) : Bytes :=
  Filter.groupBody group.operator group.filters.length (Filter.encodeAll level group.filters)
    group.bundle

/-- The bytes of a group as it is. -/
def frame (level : Nat) (group : PredicateGroup) : Bytes :=
  Filter.wrapGroup level (group.body level)

/-- The bytes of a group, every payload written once. -/
def encode (level : Nat) (group : PredicateGroup) : Bytes := group.deduplicated.frame level

/-- Reads a filter, given how to read a group. -/
def readFilter (comparators : ComparatorRegistry) (readGroup : Reader PredicateGroup) :
    Reader Filter := do
  let tag ← Frame.byte
  if tag = Filter.columnTag then return .column (← ColumnPredicate.read comparators)
  else if tag = Filter.groupTag then return (← readGroup).toFilter
  else throw (.unknownFilterKind tag)

/-- Reads the contents of a group and hands out its bundle. -/
def readBody (comparators : ComparatorRegistry) (readGroup : Reader PredicateGroup) :
    Reader (Operator × List Filter × Bundle) := do
  let operator ← Operator.ofTag (← Frame.byte)
  let count ← Frame.length
  let filters ← Frame.many count (readFilter comparators readGroup)
  let bundle ← Bundle.read
  return (operator, filters, bundle)

/-- Reads a group; so many levels of groups, itself included, may be entered. -/
def readWithin (comparators : ComparatorRegistry) : (levels : Nat) → Reader PredicateGroup
  | 0 => throw (.malformedPayload .groupsNestedTooDeeply)
  | levels + 1 => do
    let compressed ← Frame.bytes
    let contents ← Gzip.decompress compressed
    let (operator, filters, bundle) ←
      Frame.whole (readBody comparators (readWithin comparators levels)) .trailingInGroup contents
    return .of operator (Filter.distributeAll bundle filters)

/-- How many levels of groups may be nested inside the outermost group. -/
def maxDepth : Nat := 64

/-- Reads a group that takes up all of the bytes. -/
def decode (comparators : ComparatorRegistry) (bytes : Bytes) :
    Except FilterError PredicateGroup :=
  Frame.whole (readWithin comparators (maxDepth + 1)) .trailingAfterGroup bytes

end PredicateGroup

end CellFilter
