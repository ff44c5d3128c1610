import CellFilter.Proofs.Filter.Reach
import CellFilter.Proofs.Filter.RoundTrip

/-!
# What comes back from a journey

A group is encoded with its payloads moved out, and decoded with its payloads handed out.

* `ColumnPredicate.Returned`: a predicate that comes back, as compared with what it was.
* `PredicateGroup.returned_of_decode`: every predicate of a decoded group is one that came back.
* `PredicateGroup.decode_encode_same`: the **round trip** of a group whose predicates carry
  payloads.
-/

namespace CellFilter

open Outcome

namespace ColumnPredicate

/-- A predicate that comes back.  It has the payload that it carried; if it carried none, it may
have one that is known under its schema name. -/
structure Returned (known : String → Bytes → Prop) (comparators : ComparatorRegistry)
    (p q : ColumnPredicate) : Prop where
  rest : q = { p with payload? := q.payload?, comparator? := q.comparator? }
  comparator : rebuildComparator comparators p.comparator? = .ok q.comparator?
  own : ∀ x ≠ [], p.payload? = some x → q.payload? = some x
  other : ∀ x, q.payload? = some x → x ≠ [] ∧ (p.payload? = some x ∨ p.Vacant ∧ known p.key.name x)

variable {known : String → Bytes → Prop} {comparators : ComparatorRegistry}
  {p q u : ColumnPredicate} {bundle handed : Bundle} {payload : Bytes}

theorem Returned.key (h : Returned known comparators p q) : q.key = p.key := by
  rw [h.rest]

theorem filter_nonempty_eq_some {x? : Option Bytes} :
    (x?.filter fun payload => !payload.isEmpty) = some payload ↔
      x? = some payload ∧ payload ≠ [] := by
  simp [Option.filter_eq_some_iff]

/-- A predicate that is read back and given what the bundle has for it. -/
def Handed (comparators : ComparatorRegistry) (bundle : Bundle) (q u : ColumnPredicate) : Prop :=
  ∃ c?, rebuildComparator comparators q.comparator? = .ok c? ∧
    u = { q with
      payload? := (q.payload?.filter fun payload => !payload.isEmpty).or
        ((bundle.get? q.key.name).filter fun payload => !payload.isEmpty)
      comparator? := c? }

theorem handed_of_rebuild (hread : q.rebuild comparators = .ok u)
    (hhanded : ∀ n, handed.get? n = (bundle.get? n).filter fun payload => !payload.isEmpty) :
    Handed comparators bundle q (u.receive handed) := by
  obtain ⟨c?, hc, rfl⟩ := map_eq_ok.mp hread
  refine ⟨c?, hc, ?_⟩
  rw [receive]
  cases hq : q.payload?.filter fun payload => !payload.isEmpty with
  | some x =>
    obtain ⟨-, hne⟩ := filter_nonempty_eq_some.mp hq
    simp [hne]
  | none =>
    simp only [hhanded, Option.filter_filter, Bool.and_self, Option.all_none, if_true,
      Option.none_or]
    cases (bundle.get? q.key.name).filter fun payload => !payload.isEmpty <;> rfl

/-- A predicate whose payload is within reach comes back. -/
theorem Kept.returned (h : Kept known bundle p q) (hhanded : Handed comparators bundle q u)
    (hknown : ∀ n x, bundle.get? n = some x → known n x) : Returned known comparators p u := by
  obtain ⟨c?, hc, rfl⟩ := hhanded
  have hcomparator : q.comparator? = p.comparator? := by rw [h.rest]
  refine ⟨by rw [h.rest], by rw [← hcomparator]; exact hc, fun x hne hp => ?_, fun x hx => ?_⟩
  · rcases h.own x hne hp with hq | ⟨hq, hbundle⟩
    · rw [filter_nonempty_eq_some.mpr ⟨hq, hne⟩, Option.some_or]
    · rw [hq, h.key, filter_nonempty_eq_some.mpr ⟨hbundle, hne⟩]
      rfl
  · rcases Option.or_eq_some_iff.mp hx with hq | ⟨hq, hbundle⟩
    · obtain ⟨hq, hne⟩ := filter_nonempty_eq_some.mp hq
      exact ⟨hne, h.other x hq⟩
    · obtain ⟨hbundle, hne⟩ := filter_nonempty_eq_some.mp hbundle
      rw [h.key] at hbundle
      refine ⟨hne, ?_⟩
      by_cases hvacant : p.Vacant
      · exact Or.inr ⟨hvacant, hknown _ _ hbundle⟩
      · -- what was carried has been moved out, and is what the bundle has
        obtain ⟨y, hyne, hy⟩ := not_vacant_iff.mp hvacant
        rcases h.own y hyne hy with hsame | ⟨-, hsame⟩
        · rw [filter_nonempty_eq_some.mpr ⟨hsame, hyne⟩] at hq
          cases hq
        · rw [hbundle] at hsame
          exact Or.inl (by rw [hy, hsame])

/-- The predicate carries a payload, or no predicate of its schema name among others does. -/
def Supplied (others : List ColumnPredicate) (p : ColumnPredicate) : Prop :=
  p.Loaded ∨ ∀ q ∈ others, q.key.name = p.key.name → q.payload? = none

end ColumnPredicate

namespace PredicateGroup

open CellFilter.Filter

variable {comparators : ComparatorRegistry} {group decoded : PredicateGroup} {level : Nat}

/-- Encoding a group writes what is left of it. -/
theorem decode_encode (comparators : ComparatorRegistry)
    (hfits : group.deduplicated.toFilter.Fits level)
    (hlen : (group.encode level).length < UInt64.size) :
    decode comparators (group.encode level) =
      (rebuildAll comparators maxDepth group.deduplicated.filters).map fun filters =>
        .of group.operator (distributeAll group.deduplicated.bundle.reread filters) :=
  decode_frame comparators hfits hlen

/-- What is decoded is what was left of the group, read back and with the bundle handed out. -/
theorem handed_of_decode (hdistinct : group.Distinct)
    (hfits : group.deduplicated.toFilter.Fits level)
    (hlen : (group.encode level).length < UInt64.size)
    (hdecode : decode comparators (group.encode level) = .ok decoded) :
    decoded = .of group.operator decoded.filters ∧
      List.Forall₂ (Alongside (ColumnPredicate.Handed comparators group.deduplicated.bundle))
        group.deduplicated.filters decoded.filters := by
  rw [decode_encode comparators hfits hlen] at hdecode
  obtain ⟨filters, hread, rfl⟩ := map_eq_ok.mp hdecode
  have hpairs : List.Forall₂ (Alongside fun q u => q.rebuild comparators = .ok u)
      group.deduplicated.filters filters :=
    forall₂_imp_of_mem (rebuildAll_eq_ok.mp hread) fun f' hf' _ _ hone => by
      obtain ⟨f, -, hkept⟩ := forall₂_right_mem (deduplicated_kept hdistinct) f' hf'
      exact alongside_of_rebuild hkept.bare hone
  refine ⟨rfl, ?_⟩
  rw [distributeAll_eq]
  exact Alongside.mapAll hpairs fun q u hone =>
    ColumnPredicate.handed_of_rebuild hone (Bundle.get?_reread (nodup_deduplicated hdistinct))

/-- **Every predicate** of a group that was encoded and decoded is one that came back. -/
theorem returned_of_decode (hdistinct : group.Distinct)
    (hfits : group.deduplicated.toFilter.Fits level)
    (hlen : (group.encode level).length < UInt64.size)
    (hdecode : decode comparators (group.encode level) = .ok decoded) :
    Alongside (ColumnPredicate.Returned group.toFilter.Stocks comparators) group.toFilter
      decoded.toFilter := by
  obtain ⟨hdecoded, hhanded⟩ := handed_of_decode hdistinct hfits hlen hdecode
  have hknown : ∀ n x, group.deduplicated.bundle.get? n = some x → group.toFilter.Stocks n x := by
    intro n x hx
    rw [get?_deduplicated hdistinct] at hx
    exact stocks_of_held hx
  rw [hdecoded]
  exact .group (forall₂_of_common (deduplicated_kept hdistinct).flip hhanded
    fun _ _ _ _ hkept hhand => hkept.trans hhand fun p q u hpq hqu => hpq.returned hqu hknown)

/-- What was left of a predicate reads back if its comparator can be built. -/
theorem exists_rebuild_of_kept {known : String → Bytes → Prop} {outer : Bundle} {f f' : Filter}
    (hkept : Alongside (ColumnPredicate.Kept known outer) f f')
    (hrebuild : ∀ p ∈ f.leaves, p.Rebuildable comparators) :
    ∀ q ∈ f'.leaves, ∃ q', q.rebuild comparators = .ok q' := by
  intro q hq
  obtain ⟨p, hp, hpq⟩ := hkept.exists_left q hq
  have hbuild : q.Rebuildable comparators := by
    have hp := hrebuild p hp
    rw [hpq.rest]
    exact hp
  obtain ⟨c?, hc, -⟩ := hbuild.exists_comparator
  exact ⟨_, by rw [ColumnPredicate.rebuild, hc, map_ok]⟩

/-- A group is decoded if its comparators can be built and its groups are not nested too deeply. -/
theorem exists_decode (hdistinct : group.Distinct) (hdepth : depthOfAll group.filters ≤ maxDepth)
    (hrebuild : ∀ p ∈ leavesAll group.filters, p.Rebuildable comparators)
    (hfits : group.deduplicated.toFilter.Fits level)
    (hlen : (group.encode level).length < UInt64.size) :
    ∃ decoded, decode comparators (group.encode level) = .ok decoded := by
  have heach : ∀ f ∈ group.deduplicated.filters, ∃ g, f.rebuild comparators maxDepth = .ok g := by
    intro f' hf'
    obtain ⟨f, hf, hkept⟩ := forall₂_right_mem (deduplicated_kept hdistinct) f' hf'
    refine exists_rebuild ?_ (exists_rebuild_of_kept hkept fun p hp =>
      hrebuild p (mem_leavesAll.mpr ⟨f, hf, hp⟩))
    rw [hkept.depth_eq]
    exact depthOfAll_le.mp hdepth f hf
  obtain ⟨filters, hread⟩ := exists_forall₂ heach
  exact ⟨_, by rw [decode_encode comparators hfits hlen, rebuildAll_eq_ok.mpr hread, map_ok]⟩

/-- **The round trip** of a group in which a predicate carries a payload, or no predicate of its
schema name does, and whose comparators, built-in or not, the registry builds anew with the same kind
and state: the operators and the predicates are the same, in the same order, and every predicate has
its own payload. -/
theorem decode_encode_same (hbare : group.bundle = .empty)
    (hleaves : OverAll (fun p => p.Rebuildable comparators ∧
      p.Supplied (leavesAll group.filters)) group.filters)
    (hdepth : depthOfAll group.filters ≤ maxDepth)
    (hfits : group.deduplicated.toFilter.Fits level)
    (hlen : (group.encode level).length < UInt64.size) :
    ∃ decoded, decode comparators (group.encode level) = .ok decoded ∧
      Alongside ColumnPredicate.Same group.toFilter decoded.toFilter := by
  have hdistinct := distinct_of_bare hbare hleaves
  have hover : group.toFilter.Over _ := ⟨hbare, hleaves⟩
  have heach := (over_iff.mp hover).1
  obtain ⟨decoded, hdecode⟩ :=
    exists_decode hdistinct hdepth (fun p hp => (heach p hp).1) hfits hlen
  refine ⟨decoded, hdecode, (returned_of_decode hdistinct hfits hlen hdecode).imp_of_mem ?_⟩
  intro p hp q _ hreturned
  obtain ⟨hrebuild, hsupplied⟩ := heach p hp
  have hpayload : q.payload? = p.payload? := by
    rcases hsupplied with ⟨x, hne, hx⟩ | hnone
    · rw [hx, hreturned.own x hne hx]
    · -- a payload could only come from a predicate of the same schema name
      rw [hnone p hp rfl, Option.eq_none_iff_forall_ne_some]
      intro x hx
      obtain ⟨-, hp' | ⟨-, hstocks⟩⟩ := hreturned.other x hx
      · rw [hnone p hp rfl] at hp'
        cases hp'
      · obtain ⟨q', hq', hname, hcarries⟩ := (stocks_of_bare hbare hleaves).mp hstocks
        rw [hnone q' hq' hname] at hcarries
        cases hcarries
  obtain ⟨c?, hc, hsame⟩ := hrebuild.exists_comparator
  obtain rfl : c? = q.comparator? := Except.ok.inj (hc.symm.trans hreturned.comparator)
  exact ⟨by rw [← hpayload]; exact hreturned.rest, hsame⟩

/-- Where predicates on one column start, given the name of their schema and its payload. -/
def plainTarget (name : String) (payload? : Option Bytes) : ColumnTarget where
  family := [102]
  qualifier := [113]
  key := ⟨name, ⟨0⟩⟩
  payload?

/-- Two payloads under one name, in a group and in a group inside of it, and a predicate without
any.  One comparator is built in and one is not. -/
def mixedGroup : PredicateGroup :=
  .of .or [
    .column ((plainTarget "demo.A" (some [1])).fieldByteComparable "x" (.length 3) .less),
    .group .and [
      .column ((plainTarget "demo.A" (some [2])).fieldByteComparable "x" (.binary [7]) .less),
      .column ((plainTarget "demo.A" (some [1])).isEqualTo [8, 2])] .empty,
    .column ((plainTarget "demo.B" none).isEqualTo [])]

theorem decode_encode_mixedGroup : ∃ decoded,
    decode .withLength (mixedGroup.encode 0) = .ok decoded ∧
      Alongside ColumnPredicate.Same mixedGroup.toFilter decoded.toFilter := by
  have hsome : ∀ (target : ColumnTarget) path c op, ComparatorRegistry.withLength.Rebuilds c →
      (target.fieldByteComparable path c op).Rebuildable .withLength := by
    rintro target path c op hc _ ⟨⟩
    exact hc
  have hnone : ∀ name payload? encoded, ColumnPredicate.Rebuildable .withLength
      ((plainTarget name payload?).isEqualTo encoded) := fun _ _ _ =>
    ColumnPredicate.rebuildable_of_none rfl
  have hlength := ComparatorRegistry.withLength_rebuilds_length 3
  have hbinary := ComparatorRegistry.withLength_rebuilds_standard (.binary [7])
  have hleaves : OverAll (fun p => p.Rebuildable .withLength ∧
      p.Supplied (leavesAll mixedGroup.filters)) mixedGroup.filters :=
    ⟨⟨hsome _ _ _ _ hlength, .inl ⟨[1], by decide, rfl⟩⟩,
      ⟨rfl, ⟨hsome _ _ _ _ hbinary, .inl ⟨[2], by decide, rfl⟩⟩,
        ⟨hnone _ _ _, .inl ⟨[1], by decide, rfl⟩⟩, trivial⟩,
      ⟨hnone _ _ _, .inr (by decide)⟩, trivial⟩
  exact decode_encode_same rfl hleaves (by decide) (by decide +kernel) (by decide +kernel)

/-- A group reads back as it was, if its predicates of one name carry one payload and its
comparators are as they are made. -/
theorem decode_encode_eq {carried : String → Bytes} (hbare : group.bundle = .empty)
    (hcarried : OverAll (·.Carries carried) group.filters)
    (hstandard : OverAll (fun p => ∀ c ∈ p.comparator?, c.Standard) group.filters)
    (hdepth : depthOfAll group.filters ≤ maxDepth)
    (hfits : group.deduplicated.toFilter.Fits level)
    (hlen : (group.encode level).length < UInt64.size) :
    decode .standard (group.encode level) = .ok group := by
  have hdistinct := distinct_of_bare hbare hcarried
  have hover : group.toFilter.Over _ := ⟨hbare, hcarried⟩
  have hcarries := (over_iff.mp hover).1
  have hmade := (over_iff.mp (show group.toFilter.Over _ from ⟨hbare, hstandard⟩)).1
  obtain ⟨decoded, hdecode⟩ := exists_decode hdistinct hdepth
    (fun p hp => ColumnPredicate.rebuildable_standard (hmade p hp)) hfits hlen
  have hreturned := returned_of_decode hdistinct hfits hlen hdecode
  have hsame : Alongside Eq group.toFilter decoded.toFilter := by
    refine hreturned.imp_of_mem fun p hp q _ hpq => ?_
    have hc := ColumnPredicate.rebuildComparator_standard (hmade p hp)
    have hcomparator : q.comparator? = p.comparator? := Except.ok.inj (hpq.comparator.symm.trans hc)
    have hpayload : q.payload? = p.payload? := by
      rw [(hcarries p hp).payload, hpq.own _ (hcarries p hp).nonempty (hcarries p hp).payload]
    rw [hpq.rest, hpayload, hcomparator]
  obtain ⟨op, fs, bundle⟩ := group
  obtain ⟨op', fs', bundle'⟩ := decoded
  cases hsame.eq hover
  exact hdecode

end PredicateGroup

end CellFilter
