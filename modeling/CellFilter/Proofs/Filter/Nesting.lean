import CellFilter.Proofs.Filter.Returning
import CellFilter.Proofs.Payload.Chain

/-!
# How deep a filter may be nested

Nothing limits how deep the groups of a filter are nested when it is written, and reading it enters
a limited number of levels.  Moving payloads does not change how deep a filter is; so it is refused
for its nesting exactly if it is nested too deeply, and so is the payload of a schema.

* `ColumnPredicate.BuildsUnhindered`: what constructors of comparators have to do with it.
* `Filter.rebuild_unhindered`, `Filter.rebuild_of_deep`: a filter within the limit and beyond it.
* `PredicateGroup.decode_unhindered`, `PredicateGroup.decode_of_deep`: the same of encoded groups.
* `nesting_limits`: **what is refused for its nesting**, payloads and groups.
* `nesting_unlimited`: encoders do write what is refused.
-/

namespace CellFilter

open Outcome Relation

/-! ## Reading a predicate -/

theorem Unhindered.buildKind (kind : ComparatorKind) (state : Bytes) :
    Unhindered (kind.build state) := by
  unfold ComparatorKind.build
  extract_lets text
  have htext : Unhindered text := by
    unfold text
    split
    · exact .ok _
    · exact .error rfl
  cases kind with
  | binary => exact .ok _
  | binaryPrefix => exact .ok _
  | substring => exact htext.map
  | pattern =>
    refine htext.bind fun text => ?_
    unfold Comparator.ofPattern
    split
    · exact .ok _
    · exact .error rfl

/-- None of the built-in kinds reports too deep a nesting. -/
theorem Unhindered.build {comparators : ComparatorRegistry} (h : comparators.BuiltIn)
    (name : String) (state : Bytes) : Unhindered (comparators.build name state) := by
  unfold ComparatorRegistry.build
  cases hlookup : comparators.constructors.lookup name with
  | none => exact .error rfl
  | some rebuild =>
    obtain ⟨kind, rfl⟩ := h _ (mem_of_lookup hlookup)
    exact .buildKind kind state

/-- No constructor reports too deep a nesting for the comparator of the predicate. -/
def ColumnPredicate.BuildsUnhindered (comparators : ComparatorRegistry) (p : ColumnPredicate) :
    Prop :=
  ∀ c ∈ p.comparator?, Unhindered (comparators.build c.kind c.state)

theorem ColumnPredicate.BuildsUnhindered.rebuild {comparators : ComparatorRegistry}
    {p : ColumnPredicate} (h : p.BuildsUnhindered comparators) : Unhindered (p.rebuild comparators) := by
  refine Unhindered.map ?_
  cases hp : p.comparator? with
  | none => exact .ok none
  | some c => exact (h c hp).map

theorem ColumnPredicate.Rebuildable.buildsUnhindered {comparators : ComparatorRegistry}
    {p : ColumnPredicate} (h : p.Rebuildable comparators) : p.BuildsUnhindered comparators := by
  intro c hc
  obtain ⟨c', hbuild, -⟩ := h c hc
  rw [hbuild]
  exact .ok c'

/-! ## Reading a filter -/

namespace Filter

variable {comparators : ComparatorRegistry} {levels : Nat} {f : Filter} {fs : List Filter}

theorem rebuild_unhindered (hdepth : f.depth ≤ levels)
    (hbuilds : ∀ p ∈ f.leaves, p.BuildsUnhindered comparators) :
    Unhindered (f.rebuild comparators levels) := by
  induction f generalizing levels with
  | column p =>
    rw [rebuild]
    exact (hbuilds p (List.mem_singleton.mpr rfl)).rebuild.map
  | group op fs bundle ih =>
    rw [depth] at hdepth
    obtain ⟨levels, rfl⟩ : ∃ l, levels = l + 1 := ⟨levels - 1, by omega⟩
    rw [rebuild, rebuildAll_eq_mapM]
    exact (Unhindered.mapM fun f hf =>
      ih f hf (depthOfAll_le.mp (Nat.le_of_succ_le_succ hdepth) f hf) fun p hp =>
        hbuilds p (mem_leavesAll.mpr ⟨f, hf, hp⟩)).map

theorem rebuildAll_of_deep (hdeep : levels < depthOfAll fs)
    (hall : ∀ f ∈ fs, levels < f.depth →
      f.rebuild comparators levels = .error (.malformedPayload .groupsNestedTooDeeply))
    (h : ∀ p ∈ leavesAll fs, ∃ q, p.rebuild comparators = .ok q) :
    rebuildAll comparators levels fs = .error (.malformedPayload .groupsNestedTooDeeply) := by
  induction fs with
  | nil => exact absurd hdeep (Nat.not_lt_zero _)
  | cons f fs ih =>
    rw [rebuildAll]
    by_cases hfirst : levels < f.depth
    · rw [hall f List.mem_cons_self hfirst]
      rfl
    -- the filters in front of the one that is too deep are read
    · obtain ⟨g, hg⟩ := exists_rebuild (Nat.le_of_not_lt hfirst) fun p hp =>
        h p (List.mem_append_left _ hp)
      rw [depthOfAll, lt_max_iff] at hdeep
      rw [hg, ok_bind, ih (hdeep.resolve_left hfirst)
        (fun f hf => hall f (List.mem_cons_of_mem _ hf))
        (fun p hp => h p (List.mem_append_right _ hp))]
      rfl

theorem rebuild_of_deep (hdeep : levels < f.depth)
    (h : ∀ p ∈ f.leaves, ∃ q, p.rebuild comparators = .ok q) :
    f.rebuild comparators levels = .error (.malformedPayload .groupsNestedTooDeeply) := by
  induction f generalizing levels with
  | column p => exact absurd hdeep (Nat.not_lt_zero _)
  | group op fs bundle ih =>
    cases levels with
    | zero => rw [rebuild]
    | succ levels =>
      rw [rebuild, rebuildAll_of_deep (Nat.lt_of_succ_lt_succ hdeep)
        (fun f hf hlt => ih f hf hlt fun p hp => h p (mem_leavesAll.mpr ⟨f, hf, hp⟩)) h]
      rfl

end Filter

/-! ## Reading a group -/

namespace PredicateGroup

open CellFilter.Filter

variable {comparators : ComparatorRegistry} {group : PredicateGroup} {level : Nat}

/-- Moving payloads does not change how deep a group is. -/
theorem depth_deduplicated (hdistinct : group.Distinct) :
    depthOfAll group.deduplicated.filters = depthOfAll group.filters :=
  depthOfAll_congr ((deduplicated_kept hdistinct).imp fun _ _ hkept => hkept.depth_eq)

theorem decode_unhindered (hdistinct : group.Distinct)
    (hbuilds : ∀ p ∈ leavesAll group.filters, p.BuildsUnhindered comparators)
    (hfits : group.deduplicated.toFilter.Fits level)
    (hlen : (group.encode level).length < UInt64.size)
    (hdepth : depthOfAll group.filters ≤ maxDepth) :
    Unhindered (decode comparators (group.encode level)) := by
  rw [decode_encode comparators hfits hlen, rebuildAll_eq_mapM]
  rw [← depth_deduplicated hdistinct] at hdepth
  refine (Unhindered.mapM fun f' hf' => rebuild_unhindered (depthOfAll_le.mp hdepth f' hf') ?_).map
  intro q hq c hc
  obtain ⟨f, hf, hkept⟩ := forall₂_right_mem (deduplicated_kept hdistinct) f' hf'
  obtain ⟨p, hp, hpq⟩ := hkept.exists_left q hq
  rw [hpq.rest] at hc
  exact hbuilds p (mem_leavesAll.mpr ⟨f, hf, hp⟩) c hc

theorem decode_of_deep (hdistinct : group.Distinct)
    (hrebuild : ∀ p ∈ leavesAll group.filters, p.Rebuildable comparators)
    (hfits : group.deduplicated.toFilter.Fits level)
    (hlen : (group.encode level).length < UInt64.size)
    (hdeep : maxDepth < depthOfAll group.filters) :
    decode comparators (group.encode level) =
      .error (.malformedPayload .groupsNestedTooDeeply) := by
  rw [← depth_deduplicated hdistinct] at hdeep
  have hread : ∀ q ∈ leavesAll group.deduplicated.filters,
      ∃ q', q.rebuild comparators = .ok q' := by
    intro q hq
    obtain ⟨f', hf', hq⟩ := mem_leavesAll.mp hq
    obtain ⟨f, hf, hkept⟩ := forall₂_right_mem (deduplicated_kept hdistinct) f' hf'
    exact exists_rebuild_of_kept hkept (fun p hp => hrebuild p (mem_leavesAll.mpr ⟨f, hf, hp⟩)) q hq
  rw [decode_encode comparators hfits hlen, rebuildAll_of_deep hdeep (fun f hf hlt =>
    rebuild_of_deep hlt fun p hp => hread p (mem_leavesAll.mpr ⟨f, hf, hp⟩)) hread]
  rfl

/-! ## Groups put into groups -/

/-- An empty disjunction, put so many times into a disjunction. -/
def wrapped : Nat → PredicateGroup
  | 0 => .of .or []
  | n + 1 => .of .or [(wrapped n).toFilter]

theorem depth_wrapped (n : Nat) : depthOfAll (wrapped n).filters = n := by
  induction n with
  | zero => rfl
  | succ n ih =>
    show max (depthOfAll (wrapped n).filters + 1) 0 = n + 1
    rw [ih, Nat.max_zero]

theorem rebuildable_wrapped (comparators : ComparatorRegistry) (n : Nat) :
    ∀ p ∈ leavesAll (wrapped n).filters, p.Rebuildable comparators := by
  have hnone : leavesAll (wrapped n).filters = [] := by
    induction n with
    | zero => rfl
    | succ n ih =>
      show leavesAll (wrapped n).filters ++ [] = []
      rw [ih, List.append_nil]
  rw [hnone]
  exact fun p hp => absurd hp List.not_mem_nil

theorem bundle_wrapped (n : Nat) : (wrapped n).bundle = .empty := by
  cases n <;> rfl

theorem distinct_wrapped (n : Nat) : (wrapped n).Distinct := by
  have hempty : ∀ b ∈ (wrapped n).toFilter.bundles, b = .empty := by
    induction n with
    | zero => exact fun b hb => List.mem_singleton.mp hb
    | succ n ih =>
      intro b hb
      rcases List.mem_cons.mp hb with rfl | hb
      · rfl
      · have hinner : b ∈ (wrapped n).toFilter.bundles ++ [] := hb
        rw [List.append_nil] at hinner
        exact ih b hinner
  intro b hb
  rw [hempty b hb]
  exact List.nodup_nil

theorem mergeBundles_wrapped (n : Nat) :
    mergeBundles .empty [(wrapped n).toFilter] = ([(wrapped n).toFilter], .empty) := by
  rw [toFilter, bundle_wrapped]
  rfl

theorem hoist_wrapped (n : Nat) (bundle : Bundle) :
    hoist bundle (wrapped n).toFilter = ((wrapped n).toFilter, bundle) := by
  induction n generalizing bundle with
  | zero => rfl
  | succ n ih =>
    show hoist bundle (.group .or [(wrapped n).toFilter] .empty) = _
    simp only [hoist, hoistAll, ih, mergeBundles_wrapped]
    rfl

theorem deduplicated_wrapped (n : Nat) : (wrapped n).deduplicated = wrapped n := by
  cases n with
  | zero => rfl
  | succ n =>
    show PredicateGroup.deduplicated ⟨.or, [(wrapped n).toFilter], .empty⟩ = _
    simp only [deduplicated, hoistAll, hoist_wrapped, mergeBundles_wrapped]
    rfl

/-- Compression, at worst one stored block, adds at most 23 bytes, and the length at most three. -/
theorem length_wrapGroup_le (level : Nat) {body : Bytes} (h : body.length ≤ 65535) :
    (wrapGroup level body).length ≤ body.length + 26 := by
  have hcompressed := Gzip.length_compress_le h level
  have hsize := Varint.length_encode_le (Gzip.compress body level).length 2 (by omega)
  rw [wrapGroup, Frame.putBytes, List.length_append]
  omega

/-- Each level of groups takes at most thirty bytes. -/
theorem length_body_wrapped (level : Nat) :
    ∀ n ≤ 2000, ((wrapped n).body level).length ≤ 30 * n + 3
  | 0, _ => by
    have hzero := Varint.length_encode_le 0 0 (by decide)
    show ([Operator.or.tag] ++ Varint.encode 0 ++ [] ++ (Varint.encode 0 ++ [])).length ≤ _
    simp only [List.length_append, List.length_singleton, List.length_nil]
    omega
  | n + 1, hn => by
    have hzero := Varint.length_encode_le 0 0 (by decide)
    have hone := Varint.length_encode_le 1 0 (by decide)
    have hinner := length_body_wrapped level n (by omega)
    have hgroup : (wrapGroup level ((wrapped n).body level)).length ≤ _ :=
      length_wrapGroup_le level (by omega)
    show ([Operator.or.tag] ++ Varint.encode 1 ++
      (([groupTag] ++ wrapGroup level ((wrapped n).body level)) ++ []) ++
      (Varint.encode 0 ++ [])).length ≤ _
    simp only [List.length_append, List.length_singleton, List.length_nil]
    omega

theorem fits_wrapped (level : Nat) {n : Nat} (hn : n ≤ 2000) :
    (wrapped n).deduplicated.toFilter.Fits level := by
  rw [deduplicated_wrapped]
  induction n with
  | zero => exact ⟨Nat.lt_of_le_of_lt (length_body_wrapped level 0 hn) (by decide), trivial⟩
  | succ n ih =>
    have hbody := length_body_wrapped level (n + 1) hn
    have hroom : ((wrapped (n + 1)).body level).length < UInt64.size :=
      Nat.lt_of_le_of_lt (by omega : _ ≤ 60003) (by decide)
    exact ⟨hroom, ih (by omega), trivial⟩

theorem length_encode_wrapped (level : Nat) {n : Nat} (hn : n ≤ 2000) :
    ((wrapped n).encode level).length < UInt64.size := by
  have hbody := length_body_wrapped level n hn
  have hgroup : (wrapGroup level ((wrapped n).body level)).length ≤ _ :=
    length_wrapGroup_le level (by omega)
  rw [encode, deduplicated_wrapped, frame]
  exact Nat.lt_of_le_of_lt (by omega : _ ≤ 70000) (by decide)

/-- Groups nested too deeply are refused, whatever they were compressed with. -/
theorem decode_wrapped (comparators : ComparatorRegistry) (level : Nat) {n : Nat}
    (hdeep : maxDepth < n) (hn : n ≤ 2000) : decode comparators ((wrapped n).encode level) =
      .error (.malformedPayload .groupsNestedTooDeeply) :=
  decode_of_deep (distinct_wrapped n) (rebuildable_wrapped comparators n) (fits_wrapped level hn)
    (length_encode_wrapped level hn) (by rw [depth_wrapped]; exact hdeep)

end PredicateGroup

/-! ## Payloads and groups -/

/-- **What is refused for its nesting.**  The payload of a schema is not as long as its units are
nested within the limit, as they are if no chain of imports goes beyond it; and if nothing else is
wrong with its units, it is refused exactly beyond the limit.  The same holds of a group and the
groups inside it, unless the constructor of a comparator reports such a nesting by itself, which none
of the built-in ones does. -/
theorem nesting_limits :
    (∀ (s : Schema) (level : Nat) (payload : Bytes), s.pool.Reachable →
      (∀ u, ReflTransGen s.pool.Imports s.file u → s.pool.Qualified u) →
      Payload.encode level s = .ok payload →
      (∀ bytes, Payload.body s = .ok bytes → bytes.length < UInt64.size) →
        ∃ tree, Payload.layout s = .ok tree ∧
          (s.pool.Shallow Payload.maxDepth s.file → tree.nesting ≤ Payload.maxDepth) ∧
          (tree.nesting ≤ Payload.maxDepth → Unhindered (Payload.decode payload)) ∧
          ((∀ u, s.Ships u → u.Shippable) →
            (Payload.decode payload = .error (.malformedPayload .unitsNestedTooDeeply) ↔
              Payload.maxDepth < tree.nesting))) ∧
    (∀ (comparators : ComparatorRegistry) (level : Nat) (group : PredicateGroup), group.Distinct →
      group.deduplicated.toFilter.Fits level → (group.encode level).length < UInt64.size →
        ((∀ p ∈ Filter.leavesAll group.filters, p.BuildsUnhindered comparators) →
          Filter.depthOfAll group.filters ≤ PredicateGroup.maxDepth →
            Unhindered (PredicateGroup.decode comparators (group.encode level))) ∧
        ((∀ p ∈ Filter.leavesAll group.filters, p.Rebuildable comparators) →
          (PredicateGroup.decode comparators (group.encode level) =
              .error (.malformedPayload .groupsNestedTooDeeply) ↔
            PredicateGroup.maxDepth < Filter.depthOfAll group.filters))) ∧
    ∀ comparators : ComparatorRegistry, comparators.BuiltIn →
      ∀ p : ColumnPredicate, p.BuildsUnhindered comparators := by
  refine ⟨fun s level payload hs hq hencode hlen => ?_,
    fun comparators level group hdistinct hfits hlen => ?_,
    fun comparators hbuiltIn p c _ => .build hbuiltIn c.kind c.state⟩
  · obtain ⟨tree, htree⟩ := Payload.exists_layout hencode
    have hwithin := Payload.decode_unhindered htree hencode hlen
    refine ⟨tree, htree, fun hshallow => Payload.nesting_layout hs.built hshallow htree, hwithin,
      fun hship => ⟨fun hrefused => ?_,
        Payload.decode_of_deep hs.built hq hship htree hencode hlen⟩⟩
    by_contra hdepth
    exact (hwithin (Nat.le_of_not_lt hdepth)).ne_error rfl hrefused
  · refine ⟨fun hbuilds => PredicateGroup.decode_unhindered hdistinct hbuilds hfits hlen,
      fun hrebuild => ⟨fun hrefused => ?_,
        PredicateGroup.decode_of_deep hdistinct hrebuild hfits hlen⟩⟩
    by_contra hdepth
    have hwithin := PredicateGroup.decode_unhindered hdistinct
      (fun p hp => (hrebuild p hp).buildsUnhindered) hfits hlen (Nat.le_of_not_lt hdepth)
    exact hwithin.ne_error rfl hrefused

/-- Two units are within the limit, and 65 groups inside a group are beyond it. -/
theorem nesting_limits_topSchema :
    (∃ payload, Payload.encode 6 (Schema.topSchema ["base.proto"]) = .ok payload ∧
      Unhindered (Payload.decode payload) ∧
      Payload.decode payload ≠ .error (.malformedPayload .unitsNestedTooDeeply)) ∧
    PredicateGroup.decode .standard ((PredicateGroup.wrapped 65).encode 0) =
      .error (.malformedPayload .groupsNestedTooDeeply) := by
  constructor
  · have hshallow : (Schema.topPool ["base.proto"]).Shallow Payload.maxDepth
        (Schema.topUnit ["base.proto"]) := fun chain hchain =>
      (Schema.topPool_reachable.built.shallow _ chain hchain).trans
        (List.idxOf_le_length.trans (by decide))
    have hencode : Payload.encode 6 (Schema.topSchema ["base.proto"]) =
        .ok (Gzip.compress (Payload.frame "demo.Top" Payload.topTree) 6) := by
      rw [Payload.encode, Payload.body_topSchema]
      rfl
    obtain ⟨tree, -, hnesting, hwithin, hrefused⟩ := nesting_limits.1
      (Schema.topSchema ["base.proto"]) 6 _ Schema.topPool_reachable
      (fun _ => Payload.topPool_qualified) hencode fun _ => Payload.length_body_topSchema
    refine ⟨_, hencode, hwithin (hnesting hshallow), fun h => ?_⟩
    have hdeep := (hrefused fun _ => Payload.topSchema_shippable).mp h
    exact absurd (hnesting hshallow) (Nat.not_le_of_lt hdeep)
  · have hgroup := nesting_limits.2.1 .standard 0 (PredicateGroup.wrapped 65)
      (PredicateGroup.distinct_wrapped 65) (PredicateGroup.fits_wrapped 0 (by decide))
      (PredicateGroup.length_encode_wrapped 0 (by decide))
    refine (hgroup.2 (PredicateGroup.rebuildable_wrapped .standard 65)).mpr ?_
    rw [PredicateGroup.depth_wrapped]
    decide

/-- **Encoders write what is refused.**  A schema in a chain of 258 units has a payload, and so has
an empty group inside 65 groups, and neither can be decoded. -/
theorem nesting_unlimited :
    (∃ (s : Schema) (payload : Bytes), s.pool.Reachable ∧ s.pool.files = chainUnits 258 ∧
      s.file = chainUnit 257 ∧
      (∀ u, ReflTransGen s.pool.Imports s.file u → s.pool.Qualified u) ∧
      Payload.encode 0 s = .ok payload ∧
      Payload.decode payload = .error (.malformedPayload .unitsNestedTooDeeply)) ∧
    PredicateGroup.decode .standard ((PredicateGroup.wrapped 65).encode 0) =
      .error (.malformedPayload .groupsNestedTooDeeply) :=
  ⟨exists_refused_chain 0 (by decide) (by decide),
    PredicateGroup.decode_wrapped .standard 0 (by decide) (by decide)⟩

end CellFilter
