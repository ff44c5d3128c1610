import CellFilter.Proofs.Filter.Returning

/-!
# Payloads within reach

Decoding a group takes it in from the inside: every inner group hands out its bundle before the group
around it does.  Seen from the outside, the bundles around a predicate are scopes for the name of its
schema.  The payload of a predicate is its own or the one that the innermost bundle has for it, and
an empty payload counts for nothing anywhere.

Here the bytes are read once more into the tree that they spell out, nothing being handed out or left
out, and the decoded group is told from that tree.  Any bytes will do, also those that no writer
makes: groups that bundle anything anywhere, and bundles with a name several times.

* `PredicateGroup.decodeWritten`, `decodeWritten_frame`: the tree that the bytes spell out, which is
  the one that was written.
* `Bundle.lastPayload?`, `ColumnPredicate.resolve`: what a bundle has for a name, and what a predicate
  gets from the bundles around it.
* `Filter.resolve`: the tree with every payload in its place.
* `PredicateGroup.decode_scopes`: **bundles are lexical scopes** for what is decoded.
-/

namespace CellFilter

open Outcome

/-! ## Readers and their results -/

namespace Frame

variable {α β : Type}

theorem many_map (f : α → β) (reader : Reader α) (count : Nat) :
    many count (f <$> reader) = List.map f <$> many count reader := by
  induction count with
  | zero => rfl
  | succ count ih => simp only [many, ih, bind_map_left, map_bind, map_pure, List.map_cons]

theorem whole_map (f : α → β) (reader : Reader α) (fault : PayloadFault) (input : Bytes) :
    whole (f <$> reader) fault input = (whole reader fault input).map f := by
  have hrun : (f <$> reader) input = reader input >>= fun left => .ok (f left.1, left.2) := rfl
  rw [whole, whole, hrun]
  cases reader input with
  | error e => rfl
  | ok left =>
    obtain ⟨a, rest⟩ := left
    simp only [ok_bind]
    split_ifs <;> rfl

end Frame

/-! ## Predicates -/

namespace ColumnPredicate

variable {p : ColumnPredicate} {around : List Bundle} {comparators : ComparatorRegistry}

/-- Reads a predicate as it comes, with an empty payload if there is one. -/
def readWritten (comparators : ComparatorRegistry) : Reader ColumnPredicate := do
  let p ← readFrontWritten
  let comparator? ← readComparator comparators
  return { p with comparator? }

/-- The registry builds the comparator of a predicate from its kind and state. -/
def Rebuilt (comparators : ComparatorRegistry) (p : ColumnPredicate) : Prop :=
  rebuildComparator comparators p.comparator? = .ok p.comparator?

theorem reads_written (h : p.Rebuilt comparators) (hlen : p.encode.length < UInt64.size) :
    Reads (readWritten comparators) p.encode p := by
  rw [encode_eq, List.length_append] at hlen
  have hcomparator := @gives_comparator comparators p.comparator? (by omega)
  rw [h] at hcomparator
  have hrest : Reads (readComparator comparators) (putComparator p.comparator?) p.comparator? :=
    hcomparator
  exact (reads_frontWritten (by omega)).bind (hrest.andReturn _)

/-- The payload of a predicate in the scope of some bundles, the innermost first: its own, if it is
not empty, else the first that a bundle has for its schema. -/
def payloadWithin (p : ColumnPredicate) (around : List Bundle) : Option Bytes :=
  (p.payload?.filter fun payload => !payload.isEmpty).or
    (around.findSome? (·.lastPayload? p.key.name))

/-- The predicate with the payload that it has in the scope of some bundles. -/
def resolve (p : ColumnPredicate) (around : List Bundle) : ColumnPredicate :=
  { p with payload? := p.payloadWithin around }

theorem read_eq_resolve (comparators : ComparatorRegistry) :
    read comparators = (·.resolve []) <$> readWritten comparators := by
  rw [read_eq, readFront_eq]
  simp only [readWritten, bind_assoc, pure_bind, map_bind, map_pure, resolve, payloadWithin,
    List.findSome?_nil, Option.or_none]

theorem payloadWithin_ne_nil {payload : Bytes} (h : p.payloadWithin around = some payload) :
    payload ≠ [] := by
  rcases Option.or_eq_some_iff.mp h with hown | ⟨-, hbundled⟩
  · simpa using (Option.filter_eq_some_iff.mp hown).2
  · obtain ⟨bundle, -, hpayload⟩ := List.exists_of_findSome?_eq_some hbundled
    exact Bundle.lastPayload?_ne_nil hpayload

theorem receive_of_some {payload : Bytes} (h : p.payload? = some payload) (hne : payload ≠ [])
    (bundle : Bundle) : p.receive bundle = p := by
  simp [receive, h, hne]

theorem receive_of_none (h : p.payload? = none) (bundle : Bundle) :
    p.receive bundle.reread = { p with payload? := bundle.lastPayload? p.key.name } := by
  have hbundled : (bundle.reread.get? p.key.name).filter (fun payload => !payload.isEmpty) =
      bundle.lastPayload? p.key.name := by
    rw [Bundle.get?_reread_eq_last]
    cases hlast : bundle.lastPayload? p.key.name with
    | none => rfl
    | some payload => simp [Option.filter, Bundle.lastPayload?_ne_nil hlast]
  rw [receive, h, hbundled]
  cases bundle.lastPayload? p.key.name with
  | none =>
    show p = { p with payload? := none }
    rw [← h]
  | some payload => rfl

/-- A bundle that is handed out around all others is one more scope. -/
theorem receive_resolve (p : ColumnPredicate) (around : List Bundle) (bundle : Bundle) :
    (p.resolve around).receive bundle.reread = p.resolve (around ++ [bundle]) := by
  have hmore : p.payloadWithin (around ++ [bundle]) =
      (p.payloadWithin around).or (bundle.lastPayload? p.key.name) := by
    rw [payloadWithin, payloadWithin, List.findSome?_append, Option.or_assoc]
    congr 2
    exact List.findSome?_singleton
  have hpayload : (p.resolve around).payload? = p.payloadWithin around := rfl
  cases hwithin : p.payloadWithin around with
  | some payload =>
    rw [hwithin] at hpayload
    rw [receive_of_some hpayload (payloadWithin_ne_nil hwithin), resolve, resolve, hmore, hwithin,
      Option.some_or]
  | none =>
    rw [hwithin] at hpayload
    rw [receive_of_none hpayload, resolve, resolve, hmore, hwithin, Option.none_or]

end ColumnPredicate

/-! ## Trees -/

namespace Filter

variable {around : List Bundle}

mutual

/-- A filter in the scope of some bundles, the innermost first, with every payload in its place. -/
def resolve (around : List Bundle) : Filter → Filter
  | .column p => .column (p.resolve around)
  | .group op filters bundle => .group op (resolveAll (bundle :: around) filters) .empty

/-- Filters in the scope of some bundles. -/
def resolveAll (around : List Bundle) : List Filter → List Filter
  | [] => []
  | f :: rest => f.resolve around :: resolveAll around rest

end

mutual

/-- The predicates of a filter, from the first to the last, each with the bundles around it. -/
def placed (around : List Bundle) : Filter → List (ColumnPredicate × List Bundle)
  | .column p => [(p, around)]
  | .group _ filters bundle => placedAll (bundle :: around) filters

/-- The predicates of filters with the bundles around them. -/
def placedAll (around : List Bundle) : List Filter → List (ColumnPredicate × List Bundle)
  | [] => []
  | f :: rest => f.placed around ++ placedAll around rest

end

theorem resolveAll_eq_map (fs : List Filter) : resolveAll around fs = fs.map (resolve around) := by
  induction fs with
  | nil => rfl
  | cons f fs ih => rw [resolveAll, List.map_cons, ih]

mutual

theorem leaves_resolve : ∀ (f : Filter) (around : List Bundle),
    (f.resolve around).leaves = (f.placed around).map fun leaf => leaf.1.resolve leaf.2
  | .column _, _ => rfl
  | .group _ fs bundle, around => leavesAll_resolve fs (bundle :: around)

theorem leavesAll_resolve : ∀ (fs : List Filter) (around : List Bundle),
    leavesAll (resolveAll around fs) = (placedAll around fs).map fun leaf => leaf.1.resolve leaf.2
  | [], _ => rfl
  | f :: fs, around => by
    rw [resolveAll, leavesAll, leaves_resolve f, leavesAll_resolve fs, placedAll, List.map_append]

end

theorem bundles_resolve (f : Filter) : ∀ b ∈ (f.resolve around).bundles, b = .empty := by
  induction f generalizing around with
  | column p => exact fun b hb => absurd hb List.not_mem_nil
  | group op fs bundle ih =>
    rw [resolve, bundles, resolveAll_eq_map]
    refine List.forall_mem_cons.mpr ⟨rfl, fun b hb => ?_⟩
    obtain ⟨g, hg, hb⟩ := mem_bundlesAll.mp hb
    obtain ⟨f, hf, rfl⟩ := List.mem_map.mp hg
    exact ih f hf b hb

/-- **A bundle handed out around a tree** is one more scope around it. -/
theorem distribute_resolve (bundle : Bundle) (f : Filter) :
    (f.resolve around).mapLeaves (·.receive bundle.reread) = f.resolve (around ++ [bundle]) := by
  induction f generalizing around with
  | column p => exact congrArg Filter.column (p.receive_resolve around bundle)
  | group op fs inner ih =>
    simp only [resolve, mapLeaves, resolveAll_eq_map, mapAll_eq_map, List.map_map]
    congr 1
    exact List.map_congr_left fun f hf => ih f hf

theorem distributeAll_resolve (bundle : Bundle) (fs : List Filter) :
    distributeAll bundle.reread (fs.map (resolve [])) = resolveAll [bundle] fs := by
  rw [distributeAll_eq, mapAll_eq_map, List.map_map, resolveAll_eq_map]
  exact List.map_congr_left fun f _ => distribute_resolve bundle f

end Filter

/-! ## Groups -/

namespace PredicateGroup

open CellFilter.Filter

variable {comparators : ComparatorRegistry}

/-- Reads a filter as it comes, given how to read a group. -/
def readFilterWritten (comparators : ComparatorRegistry) (readGroup : Reader PredicateGroup) :
    Reader Filter := do
  let tag ← Frame.byte
  if tag = Filter.columnTag then return .column (← ColumnPredicate.readWritten comparators)
  else if tag = Filter.groupTag then return (← readGroup).toFilter
  else throw (.unknownFilterKind tag)

/-- Reads the contents of a group as they come. -/
def readBodyWritten (comparators : ComparatorRegistry) (readGroup : Reader PredicateGroup) :
    Reader PredicateGroup := do
  let operator ← Operator.ofTag (← Frame.byte)
  let count ← Frame.length
  let filters ← Frame.many count (readFilterWritten comparators readGroup)
  return ⟨operator, filters, ← Bundle.readWritten⟩

/-- Reads a group as it comes; so many levels of groups, itself included, may be entered. -/
def readWritten (comparators : ComparatorRegistry) : (levels : Nat) → Reader PredicateGroup
  | 0 => throw (.malformedPayload .groupsNestedTooDeeply)
  | levels + 1 => do
    let contents ← Gzip.decompress (← Frame.bytes)
    Frame.whole (readBodyWritten comparators (readWritten comparators levels)) .trailingInGroup
      contents

/-- The group that the bytes spell out: every payload and every bundle where it was written. -/
def decodeWritten (comparators : ComparatorRegistry) (bytes : Bytes) :
    Except FilterError PredicateGroup :=
  Frame.whole (readWritten comparators (maxDepth + 1)) .trailingAfterGroup bytes

section Written

variable {level levels : Nat} {op : Operator} {fs : List Filter} {bundle : Bundle}

theorem reads_writtenGroup
    (hbody : (groupBody op fs.length (encodeAll level fs) bundle).length < UInt64.size)
    (hlen : (wrapGroup level (groupBody op fs.length (encodeAll level fs) bundle)).length <
      UInt64.size)
    (hfilters : Reads
      (Frame.many fs.length (readFilterWritten comparators (readWritten comparators levels)))
      (encodeAll level fs) fs) :
    Reads (readWritten comparators (levels + 1))
      (wrapGroup level (groupBody op fs.length (encodeAll level fs) bundle)) ⟨op, fs, bundle⟩ := by
  have hbundle : Reads Bundle.readWritten bundle.encode bundle := by
    simp only [groupBody, List.length_append] at hbody
    exact Bundle.reads_written (by omega)
  have hinside : Reads (readBodyWritten comparators (readWritten comparators levels))
      (groupBody op fs.length (encodeAll level fs) bundle) ⟨op, fs, bundle⟩ :=
    gives_contents PredicateGroup.mk hbody hfilters hbundle
  refine gives_wrapped hlen ?_
  rw [hinside.whole .trailingInGroup]
  exact fun _ => rfl

mutual

theorem reads_writtenFilter : ∀ {f : Filter} {levels : Nat}, f.depth ≤ levels → f.Fits level →
    (f.encode level).length < UInt64.size → (∀ p ∈ f.leaves, p.Rebuilt comparators) →
      Reads (readFilterWritten comparators (readWritten comparators levels)) (f.encode level) f
  | .column p, levels, _, _, hlen, hbuilt => by
    rw [Filter.encode, List.length_append] at hlen
    have hread := ColumnPredicate.reads_written (hbuilt p (List.mem_singleton.mpr rfl)) (by omega)
    exact .bind (Frame.reads_byte columnTag) (hread.andReturn Filter.column)
  | .group op fs bundle, levels, hdepth, hfits, hlen, hbuilt => by
    rw [depth] at hdepth
    rw [Filter.encode, List.length_append] at hlen
    obtain ⟨levels, rfl⟩ : ∃ l, levels = l + 1 := ⟨levels - 1, by omega⟩
    have hbody := hfits.1
    have hinside : (encodeAll level fs).length < UInt64.size := by
      simp only [groupBody, List.length_append] at hbody
      omega
    have hfilters := @reads_writtenFilters fs levels (by omega) hfits.2 hinside hbuilt
    have hgroup := reads_writtenGroup hbody (by omega) hfilters
    exact .bind (Frame.reads_byte groupTag) (hgroup.andReturn PredicateGroup.toFilter)

theorem reads_writtenFilters : ∀ {fs : List Filter} {levels : Nat}, depthOfAll fs ≤ levels →
    FitsAll level fs → (encodeAll level fs).length < UInt64.size →
      (∀ p ∈ leavesAll fs, p.Rebuilt comparators) →
        Reads (Frame.many fs.length (readFilterWritten comparators (readWritten comparators levels)))
          (encodeAll level fs) fs
  | [], levels, _, _, _, _ => .pure []
  | f :: fs, levels, hdepth, hfits, hlen, hbuilt => by
    rw [depthOfAll, max_le_iff] at hdepth
    rw [encodeAll, List.length_append] at hlen
    have hfirst := @reads_writtenFilter f levels hdepth.1 hfits.1 (by omega)
      fun p hp => hbuilt p (List.mem_append_left _ hp)
    have hrest := @reads_writtenFilters fs levels hdepth.2 hfits.2 (by omega)
      fun p hp => hbuilt p (List.mem_append_right _ hp)
    exact hfirst.bind (hrest.andReturn (f :: ·))

end

/-- **The tree that was written** is the one that its bytes spell out. -/
theorem decodeWritten_frame {group : PredicateGroup}
    (hdepth : depthOfAll group.filters ≤ maxDepth) (hfits : group.toFilter.Fits level)
    (hlen : (group.frame level).length < UInt64.size)
    (hbuilt : ∀ p ∈ leavesAll group.filters, p.Rebuilt comparators) :
    decodeWritten comparators (group.frame level) = .ok group := by
  have hinside : (encodeAll level group.filters).length < UInt64.size := by
    have hbody := hfits.1
    simp only [groupBody, List.length_append] at hbody
    omega
  have hfilters := @reads_writtenFilters comparators level group.filters maxDepth hdepth hfits.2
    hinside hbuilt
  exact (reads_writtenGroup hfits.1 hlen hfilters).whole .trailingAfterGroup

end Written

/-- The group with every payload in its place. -/
def resolve (group : PredicateGroup) : PredicateGroup :=
  .of group.operator (resolveAll [group.bundle] group.filters)

theorem readFilter_eq_resolve (readGroup : Reader PredicateGroup) :
    readFilter comparators (resolve <$> readGroup) =
      Filter.resolve [] <$> readFilterWritten comparators readGroup := by
  unfold readFilter readFilterWritten
  rw [map_bind]
  refine bind_congr fun tag => ?_
  split_ifs
  · simp only [ColumnPredicate.read_eq_resolve, bind_map_left, map_bind, map_pure, Filter.resolve]
  · simp only [bind_map_left, map_bind, map_pure]
    rfl
  · rfl

theorem readBody_eq_resolve (readGroup : Reader PredicateGroup) :
    readBody comparators (resolve <$> readGroup) =
      (fun g => (g.operator, g.filters.map (Filter.resolve []), g.bundle.reread)) <$>
        readBodyWritten comparators readGroup := by
  simp only [readBody, readBodyWritten, readFilter_eq_resolve, Frame.many_map, Bundle.read_eq_reread,
    bind_map_left, bind_assoc, pure_bind, map_bind, map_pure]

theorem of_distributeAll (group : PredicateGroup) :
    PredicateGroup.of group.operator
        (distributeAll group.bundle.reread (group.filters.map (Filter.resolve []))) =
      group.resolve := by
  rw [resolve, distributeAll_resolve]

/-- **Reading a group** puts every payload of what is written in its place. -/
theorem readWithin_eq_resolve (comparators : ComparatorRegistry) (levels : Nat) :
    readWithin comparators levels = resolve <$> readWritten comparators levels := by
  induction levels with
  | zero => rfl
  | succ levels ih =>
    simp only [readWithin, readWritten, map_bind]
    refine bind_congr fun compressed => bind_congr fun contents => ?_
    rw [ih, readBody_eq_resolve, Frame.whole_map]
    cases Frame.whole (readBodyWritten comparators (readWritten comparators levels))
      .trailingInGroup contents with
    | error e => rfl
    | ok group =>
      exact congrArg (fun g => (pure g : Reader PredicateGroup)) (of_distributeAll group)

/-- Bytes are refused just if they spell out no group. -/
theorem decode_eq_resolve (comparators : ComparatorRegistry) (bytes : Bytes) :
    decode comparators bytes = (decodeWritten comparators bytes).map resolve := by
  rw [decode, decodeWritten, readWithin_eq_resolve, Frame.whole_map]

/-- **Bundles are lexical scopes** for what is decoded.  The decoded group is the one that its bytes
spell out, each predicate having the payload that it finds from its place: its own, if it is not
empty, else the one of the innermost bundle that has a payload for the name of its schema, the last
one there that is not empty.  All bundles are empty then. -/
theorem decode_scopes {bytes : Bytes} {group : PredicateGroup}
    (h : decode comparators bytes = .ok group) :
    ∃ written, decodeWritten comparators bytes = .ok written ∧
      group.toFilter = written.toFilter.resolve [] ∧
      group.toFilter.leaves =
        (written.toFilter.placed []).map (fun leaf => leaf.1.resolve leaf.2) ∧
      ∀ bundle ∈ group.toFilter.bundles, bundle = .empty := by
  rw [decode_eq_resolve, map_eq_ok] at h
  obtain ⟨written, hwritten, rfl⟩ := h
  have htree : written.resolve.toFilter = written.toFilter.resolve [] := rfl
  exact ⟨written, hwritten, htree, htree ▸ leaves_resolve written.toFilter [],
    htree ▸ bundles_resolve written.toFilter⟩

/-- A group that no writer makes.  Its bundles have empty payloads and names several times, and a
predicate has an empty payload. -/
def layeredGroup : PredicateGroup :=
  ⟨.or, [
    .column ((plainTarget "demo.A" (some [9])).isEqualTo [8, 1]),
    .column ((plainTarget "demo.A" (some [])).isEqualTo [8, 2]),
    .group .and [
      .column ((plainTarget "demo.A" none).isEqualTo [8, 3]),
      .column ((plainTarget "demo.B" none).isEqualTo []),
      .column ((plainTarget "demo.C" none).isEqualTo [])] ⟨[("demo.B", []), ("demo.A", [7])]⟩],
    ⟨[("demo.A", [1]), ("demo.B", [2]), ("demo.A", [3]), ("demo.A", [])]⟩⟩

theorem decode_scopes_layeredGroup : ∃ group,
    decode .standard (layeredGroup.frame 0) = .ok group ∧
      (∀ bundle ∈ group.toFilter.bundles, bundle = .empty) ∧
      group.toFilter.leaves.map (fun p => (p.key.name, p.payload?)) =
        [("demo.A", some [9]), ("demo.A", some [3]), ("demo.A", some [7]), ("demo.B", some [2]),
          ("demo.C", none)] := by
  have hbuilt : ∀ p ∈ leavesAll layeredGroup.filters, p.Rebuilt .standard := by
    have hnone : ∀ p ∈ leavesAll layeredGroup.filters, p.comparator? = none := by
      simp [layeredGroup, leavesAll, Filter.leaves, ColumnTarget.isEqualTo,
        ColumnTarget.messageMatch, ColumnTarget.predicate]
    intro p hp
    rw [ColumnPredicate.Rebuilt, hnone p hp]
    rfl
  have hwritten : decodeWritten .standard (layeredGroup.frame 0) = .ok layeredGroup :=
    decodeWritten_frame (by decide) (by decide +kernel) (by decide +kernel) hbuilt
  have hdecode : decode .standard (layeredGroup.frame 0) = .ok layeredGroup.resolve := by
    rw [decode_eq_resolve, hwritten, map_ok]
  obtain ⟨written, hspelled, -, hleaves, hempty⟩ := decode_scopes hdecode
  obtain rfl : layeredGroup = written := Except.ok.inj (hwritten.symm.trans hspelled)
  refine ⟨_, hdecode, hempty, ?_⟩
  rw [hleaves]
  decide

end PredicateGroup

end CellFilter
