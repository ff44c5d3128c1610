import CellFilter.Proofs.Catalog.Registry
import CellFilter.Proofs.Filter.Caching
import CellFilter.Proofs.Filter.Returning
import CellFilter.Proofs.Payload.RoundTrip

/-!
# Shipping a filter

A tree of predicates begun by a registry is encoded, decoded on the other side and made ready there
through a cache that knows no schema yet.  It decides on every row as the tree does that is made
ready with the schemas of the registry.

* `Schema.Transportable`: a schema whose payload can be read back.
* `schemaOf_alike`: what is rebuilt from a payload can stand in for the schema of the catalog.
* `PredicateGroup.decode_encode_decides`: **shipping changes no decision**.
-/

namespace CellFilter

open Outcome Relation WithCache Schema

/-- What the imports of a schema have to be for its payload to be read back: named as things are
named, referring to each other by full names, and not too deep; and the bytes of every unit give
the unit back. -/
structure Schema.Transportable (s : Schema) : Prop where
  names : s.file.WellNamed
  qualified : ∀ u, ReflTransGen s.pool.Imports s.file u → s.pool.Qualified u
  shallow : s.pool.Shallow Payload.maxDepth s.file
  shippable : ∀ u, s.Ships u → u.Shippable
  room : ∀ bytes, Payload.body s = .ok bytes → bytes.length < UInt64.size

/-- The payload of such a schema decodes to one that can stand in for it. -/
theorem Schema.Transportable.decode_encode {s : Schema} (h : s.Transportable)
    (hs : s.pool.Reachable) {level : Nat} {payload : Bytes}
    (hencode : Payload.encode level s = .ok payload) :
    ∃ t, Payload.decode payload = .ok t ∧ Filter.Interchangeable s t := by
  have hfile := List.mem_of_getElem? (exists_declared hs.built).1
  have hdepth : ∀ tree, UnitTree.ofUnit s.pool s.file = .ok tree →
      tree.nesting ≤ Payload.maxDepth := fun tree htree =>
    UnitTree.nesting_ofUnit hs.built hfile h.shallow htree
  obtain ⟨payload', tree, t, hencode', hdecode, hrebuilds⟩ :=
    Payload.exists_payload level hs.built h.names h.qualified h.shippable hdepth h.room
  obtain rfl := Except.ok.inj (hencode.symm.trans hencode')
  exact ⟨t, hdecode, hrebuilds.isomorphic, hs.built, hrebuilds.built⟩

variable {resources : List Resource} {level groupLevel : Nat}

/-- What the leaves of a tree have to be: made from what a registry began, on schemas that travel. -/
structure SchemaRegistry.Ships (resources : List Resource) (level : Nat) (p : ColumnPredicate) :
    Prop where
  builds : SchemaRegistry.Builds resources level p
  transportable : ∀ s, (Catalog.ofResources resources).schemaOf p.key.name = .ok s →
    s.Transportable

/-- The schema rebuilt from the payload of a predicate can stand in for that of the catalog. -/
theorem SchemaRegistry.Ships.schemaOf_alike {p : ColumnPredicate}
    (h : SchemaRegistry.Ships resources level p) :
    Alike Filter.Interchangeable ((Catalog.ofResources resources).schemaOf p.key.name)
      (Filter.decoded ((Catalog.ofResources resources).payloadOf level) p.key.name) := by
  obtain ⟨entry, hfind, hencode⟩ := h.builds.exists_entry
  have hschema : (Catalog.ofResources resources).schemaOf p.key.name = .ok entry.schema := by
    rw [Catalog.schemaOf, hfind]
    rfl
  obtain ⟨t, hdecode, ht⟩ := (h.transportable entry.schema hschema).decode_encode
    (Catalog.reachable_of_find hfind) hencode
  rw [hschema, Filter.decoded, hdecode]
  exact ht

namespace PredicateGroup

open CellFilter.Filter

variable {group : PredicateGroup}

/-- **Shipping changes no decision.**  A group of predicates begun by a registry is decoded from its
bytes, all lengths in them being numbers of 64 bits.  Made ready on an empty cache it fails where the
original fails; else, whatever calls came before, both say the same about every row: the same code
or an error at each cell, and the same verdict. -/
theorem decode_encode_decides (hbare : group.bundle = .empty)
    (hships : OverAll (SchemaRegistry.Ships resources level) group.filters)
    (hdepth : depthOfAll group.filters ≤ maxDepth)
    (hfits : group.deduplicated.toFilter.Fits groupLevel)
    (hlen : (group.encode groupLevel).length < UInt64.size) :
    ∃ shipped, decode .standard (group.encode groupLevel) = .ok shipped ∧
      Alike (fun e e' => ∀ (history : List Evaluator.Call) (row : List Cell),
          Evaluator.report row (history.foldl Evaluator.call e) =
            Evaluator.report row (history.foldl Evaluator.call e'))
        (group.toFilter.evaluatorFrom (Catalog.ofResources resources).schemaOf)
        (runOn shipped.toFilter.evaluator .empty).1 := by
  have hcarries : OverAll (·.Carries ((Catalog.ofResources resources).payloadOf level))
      group.filters := hships.imp fun p hp => hp.builds.carries
  have hstandard : OverAll (fun p => ∀ c ∈ p.comparator?, c.Standard) group.filters := by
    refine hships.imp fun p hp => ?_
    obtain ⟨e, -, -, hstandard⟩ := hp.builds.exists_encoded
    exact hstandard
  have hsame : OverAll (fun p => Alike Interchangeable
      ((Catalog.ofResources resources).schemaOf p.key.name)
      (decoded ((Catalog.ofResources resources).payloadOf level) p.key.name)) group.filters :=
    hships.imp fun p hp => hp.schemaOf_alike
  -- what is decoded is the group itself, so that only the schemas differ
  refine ⟨group, decode_encode_eq hbare hcarries hstandard hdepth hfits hlen, ?_⟩
  have hyields := evaluator_yields (f := group.toFilter) ⟨hbare, hcarries⟩
  rw [(hyields .empty (SchemaCache.faithful_empty _)).1]
  refine (evaluatorFrom_alike (f := group.toFilter) ⟨hbare, hsame⟩).mono ?_
  intro e e' he history row
  exact Evaluator.report_eq (Evaluator.calls_same he history) row

/-! ### Two predicates on a message of a type that another unit declares -/

theorem topSchema_transportable : (topSchema ["base.proto"]).Transportable where
  names := Payload.topUnit_wellNamed
  qualified := fun _ => Payload.topPool_qualified
  shallow := by
    intro chain hchain
    have hlength := topPool_reachable.built.shallow _ chain hchain
    have hplace : (topPool ["base.proto"]).place (topSchema ["base.proto"]).file.name = 1 := by rfl
    have hdepth : 1 ≤ Payload.maxDepth := by decide
    omega
  shippable := fun _ => Payload.topSchema_shippable
  room := fun _ => Payload.length_body_topSchema

/-- A resource with both units. -/
def topResource : Resource where
  name := "top.desc"
  bytes := [baseUnit, topUnit ["base.proto"]].flatMap fun u => 0x0A :: Frame.putBytes u.encode

theorem pool_topResource : topResource.pool = .ok (topPool ["base.proto"]) := by
  with_unfolding_all rfl

theorem find_topResource : (Catalog.ofResources [topResource]).find "demo.Top" =
    .ok ⟨0, topSchema ["base.proto"]⟩ := by
  have hfind : ∀ digest, Catalog.find ⟨[topPool ["base.proto"]],
      [("demo.Base", 0), ("demo.Top", 0)], digest⟩ "demo.Top" =
        .ok ⟨0, topSchema ["base.proto"]⟩ := by
    intro digest
    rfl
  have hcatalog : Catalog.ofResources [topResource] = ⟨[topPool ["base.proto"]],
      [("demo.Base", 0), ("demo.Top", 0)], Bundle.digest [topResource.bytes]⟩ := by
    unfold Catalog.ofResources
    simp only [List.filterMap_cons, pool_topResource]
    rfl
  rw [hcatalog, hfind]

/-- The payload of the message, stored as it is. -/
def topPayload : Bytes := Gzip.compress (Payload.frame "demo.Top" Payload.topTree) 0

/-- Where predicates on a column of such messages start. -/
def topTarget : ColumnTarget where
  family := [102]
  qualifier := [113]
  key := ⟨"demo.Top", .of topPayload⟩
  payload? := some topPayload

theorem column_topResource : ((SchemaRegistry.column "demo.Top" [102] [113]).run
    (.ofResources [topResource] 0)).1 = .ok topTarget := by
  obtain ⟨left, hrun, -⟩ :=
    (SchemaRegistry.serves_ofResources [topResource] 0).run_column "demo.Top" [102] [113]
  have htrim : trimName "demo.Top" = "demo.Top" := by rfl
  have hencode : Payload.encode 0 (topSchema ["base.proto"]) = .ok topPayload := by
    rw [Payload.encode, Payload.body_topSchema]
    rfl
  rw [hrun, htrim, Catalog.encoded, find_topResource, ok_bind, hencode]
  rfl

theorem ships_topTarget {p : ColumnPredicate} (h : topTarget.Ends p) :
    SchemaRegistry.Ships [topResource] 0 p where
  builds := .column false true (SchemaRegistry.serves_ofResources [topResource] 0)
    column_topResource h
  transportable := by
    intro s hs
    rw [h.key_eq, Catalog.schemaOf] at hs
    have hname : topTarget.key.name = "demo.Top" := rfl
    rw [hname, find_topResource] at hs
    cases hs
    exact topSchema_transportable

/-- Whether the field is there, twice. -/
def topGroup : PredicateGroup :=
  .of .and [.column (topTarget.messageMatch .equal [10, 0]),
    .group .or [.column (topTarget.messageMatch .exact [10, 0])] .empty]

/-- A leaf of the group, made ready with the schema of the catalog. -/
def topTest (target : ColumnTarget) (op : MatchOp) : ColumnTest where
  predicate := target.messageMatch op [10, 0]
  schema := topSchema ["base.proto"]
  wanted := .message ⟨topSchema ["base.proto"],
    [(1, .message ⟨⟨topPool ["base.proto"], 0, Nat.two_pos⟩, []⟩)]⟩

/-- The group made ready with the schema of the catalog. -/
def topEvaluator (target : ColumnTarget) : Evaluator :=
  .group .and [.column (topTest target .equal) .notFound,
    .group .or [.column (topTest target .exact) .notFound]]

theorem evaluatorFrom_topGroup : topGroup.toFilter.evaluatorFrom
    (Catalog.ofResources [topResource]).schemaOf = .ok (topEvaluator topTarget) := by
  have hschema : (Catalog.ofResources [topResource]).schemaOf "demo.Top" =
      .ok (topSchema ["base.proto"]) := by
    rw [Catalog.schemaOf, find_topResource]
    rfl
  -- for any source of schemas, so that the catalog is not computed
  have hready : ∀ schemas : String → Except FilterError Schema,
      schemas "demo.Top" = .ok (topSchema ["base.proto"]) →
        topGroup.toFilter.evaluatorFrom schemas = .ok (topEvaluator topTarget) := by
    intro schemas h
    have htest : ∀ op, (op = .equal ∨ op = .exact) →
        (topTarget.messageMatch op [10, 0]).testFrom schemas = .ok (topTest topTarget op) := by
      rintro op (rfl | rfl)
      · show (schemas "demo.Top" >>= _) = _
        rw [h]
        rfl
      · show (schemas "demo.Top" >>= _) = _
        rw [h]
        rfl
    simp only [topGroup, of, toFilter, Filter.evaluatorFrom, Filter.evaluatorsFrom,
      htest _ (.inl rfl), htest _ (.inr rfl)]
    rfl
  exact hready _ hschema

theorem report_topEvaluator (key : SchemaKey) (payload? : Option Bytes) :
    Evaluator.report [⟨[102], [113], [10, 0]⟩]
      (topEvaluator ⟨[102], [113], key, payload?, false, true⟩) = ([some .include], true) := by
  with_unfolding_all rfl

set_option maxRecDepth 10000 in
theorem decode_encode_topGroup : ∃ shipped e,
    decode .standard (topGroup.encode 0) = .ok shipped ∧
      (runOn shipped.toFilter.evaluator .empty).1 = .ok e ∧
        Evaluator.report [⟨[102], [113], [10, 0]⟩] e = ([some .include], true) := by
  have hships : Filter.OverAll (SchemaRegistry.Ships [topResource] 0) topGroup.filters :=
    ⟨ships_topTarget (.messageMatch _ _), ⟨rfl, ships_topTarget (.messageMatch _ _), trivial⟩,
      trivial⟩
  have hdepth : Filter.depthOfAll topGroup.filters ≤ maxDepth := by decide
  have hfits : topGroup.deduplicated.toFilter.Fits 0 := by decide +kernel
  have hlen : (topGroup.encode 0).length < UInt64.size := by decide +kernel
  obtain ⟨shipped, hdecode, halike⟩ := decode_encode_decides rfl hships hdepth hfits hlen
  rw [evaluatorFrom_topGroup] at halike
  cases he : (runOn shipped.toFilter.evaluator .empty).1 with
  | error fault =>
    rw [he] at halike
    exact halike.elim
  | ok e =>
    rw [he] at halike
    refine ⟨shipped, e, hdecode, he, ?_⟩
    rw [← report_topEvaluator topTarget.key topTarget.payload?]
    exact (halike [] _).symm

end PredicateGroup

end CellFilter
