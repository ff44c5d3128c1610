import CellFilter.Filter.Evaluator
import CellFilter.Proofs.Cache.Run
import CellFilter.Proofs.Filter.Returning

/-!
# Payloads and the hashes in keys

A key names a payload by its hash, and a cache trusts its keys.  Payloads travel by the names of
their schemas alone, so that a predicate that carried no payload may come back with one of another
hash.  Every other predicate comes back with the payload that its key names.

* `ColumnPredicate.Addressed`: the key of a predicate has the hash of its payload.
* `SchemaCache.Addressed`: a cache with schemas of payloads that its keys name.
* `PredicateGroup.addressed_of_decode`: what decoding does to hashes.
-/

namespace CellFilter

open Outcome WithCache

/-- The key of the predicate has the hash of its payload, if there is one. -/
def ColumnPredicate.Addressed (p : ColumnPredicate) : Prop := ∀ x ∈ p.payload?, p.key.hash = .of x

/-- A predicate that comes back with the payload that it carried, named by its key, or, if it
carried none, with one that is known under its schema name at most. -/
structure ColumnPredicate.Delivered (known : String → Bytes → Prop) (p q : ColumnPredicate) :
    Prop where
  key : q.key = p.key
  carried : ¬ p.Vacant → q.payload? = p.payload? ∧ q.Addressed
  given : p.Vacant → ∀ x ∈ q.payload?, x ≠ [] ∧ known p.key.name x

namespace SchemaCache

variable {cache : SchemaCache} {key : SchemaKey} {schema : Schema} {payload : Bytes}

/-- Every schema in the cache is what a payload decodes to whose hash is in the key. -/
def Addressed (cache : SchemaCache) : Prop := ∀ key handle, cache.get? key = some handle →
  ∃ payload, key.hash = .of payload ∧ Payload.decode payload = .ok handle.schema

theorem Addressed.insert (h : cache.Addressed) (hkey : key.hash = .of payload)
    (hd : Payload.decode payload = .ok schema) : (cache.insert key schema).Addressed := by
  intro other handle hget
  rw [get?_insert] at hget
  split_ifs at hget with hother
  · cases hget
    rw [hother]
    exact ⟨payload, hkey, hd⟩
  · exact h other handle hget

/-- Asking for a schema by the hash of its payload keeps a cache addressed. -/
theorem keeps_resolve {payload? : Option Bytes} (hkey : ∀ x ∈ payload?, key.hash = .of x) :
    Keeps Addressed (resolve key payload?) := by
  intro cache h
  cases hget : cache.get? key with
  | some handle =>
    rw [resolve_of_hit hget]
    exact h
  | none =>
    cases hp : payload?.filter fun p => !p.isEmpty with
    | none =>
      rw [resolve_of_missing hget hp]
      exact h
    | some payload =>
      obtain ⟨rfl, hne⟩ := ColumnPredicate.filter_nonempty_eq_some.mp hp
      have hkept : payload.isEmpty = false := by simpa using hne
      cases hd : Payload.decode payload with
      | ok schema =>
        rw [resolve_of_miss hget hkept hd]
        exact h.insert (hkey payload rfl) hd
      | error fault =>
        rw [resolve_of_undecodable hget hkept hd]
        exact h

end SchemaCache

namespace Filter

variable {invariant : SchemaCache → Prop}

mutual

/-- Making a filter ready does to a cache what asking for the schemas of its predicates does. -/
theorem evaluator_keeps : ∀ {f : Filter},
    (∀ p ∈ f.leaves, Keeps invariant (SchemaCache.resolve p.key p.payload?)) →
      Keeps invariant f.evaluator
  | .column p, h => by
    rw [evaluator, ColumnPredicate.test]
    refine Keeps.bind ?_ fun _ => .pure _
    exact (h p (List.mem_singleton.mpr rfl)).bind fun _ => (Keeps.lift _).bind fun _ => .pure _
  | .group op fs bundle, h => by
    rw [evaluator]
    exact (evaluators_keeps h).bind fun _ => .pure _

theorem evaluators_keeps : ∀ {fs : List Filter},
    (∀ p ∈ leavesAll fs, Keeps invariant (SchemaCache.resolve p.key p.payload?)) →
      Keeps invariant (evaluators fs)
  | [], _ => .pure []
  | f :: fs, h => by
    rw [evaluators]
    refine (evaluator_keeps fun p hp => h p (List.mem_append_left _ hp)).bind fun _ => ?_
    exact (evaluators_keeps fun p hp => h p (List.mem_append_right _ hp)).bind fun _ => .pure _

end

end Filter

namespace PredicateGroup

open CellFilter.Filter

variable {comparators : ComparatorRegistry} {group decoded : PredicateGroup} {level : Nat}

/-- **Hashes on the way.**  Let the keys of a group have the hashes of the payloads carried.  In the
decoded group every predicate that carried a payload has that very payload, named by its key.
One that carried none may have any payload that the group has under its schema name.  So if its key
has the hash of every such payload, all payloads are named by the keys they come with, and no cache
is given a schema under a key that names another payload. -/
theorem addressed_of_decode (hdistinct : group.Distinct)
    (haddressed : ∀ p ∈ group.toFilter.leaves, p.Addressed)
    (hfits : group.deduplicated.toFilter.Fits level)
    (hlen : (group.encode level).length < UInt64.size)
    (hdecode : decode comparators (group.encode level) = .ok decoded) :
    Alongside (ColumnPredicate.Delivered group.toFilter.Stocks) group.toFilter decoded.toFilter ∧
    ((∀ p ∈ group.toFilter.leaves, p.Vacant → ∀ x ≠ [], group.toFilter.Stocks p.key.name x →
        p.key.hash = .of x) →
      (∀ q ∈ decoded.toFilter.leaves, q.Addressed) ∧
        Keeps SchemaCache.Addressed decoded.toFilter.evaluator) := by
  have hdelivered : Alongside (ColumnPredicate.Delivered group.toFilter.Stocks) group.toFilter
      decoded.toFilter := by
    have hreturned := returned_of_decode hdistinct hfits hlen hdecode
    refine hreturned.imp_of_mem fun p hp q _ hpq =>
      ⟨hpq.key, fun hcarries => ?_, fun hvacant x hx => ?_⟩
    · obtain ⟨x, hne, hx⟩ := ColumnPredicate.not_vacant_iff.mp hcarries
      have hsame : q.payload? = p.payload? := by rw [hx, hpq.own x hne hx]
      refine ⟨hsame, fun y hy => ?_⟩
      rw [hpq.key]
      exact haddressed p hp y (hsame ▸ hy)
    · obtain ⟨hne, hown | ⟨-, hstocks⟩⟩ := hpq.other x hx
      · exact absurd (hvacant x hown) hne
      · exact ⟨hne, hstocks⟩
  refine ⟨hdelivered, fun hnamed => ?_⟩
  have hall : ∀ q ∈ decoded.toFilter.leaves, q.Addressed := by
    intro q hq
    obtain ⟨p, hp, hpq⟩ := hdelivered.exists_left q hq
    by_cases hvacant : p.Vacant
    · intro x hx
      obtain ⟨hne, hstocks⟩ := hpq.given hvacant x hx
      rw [hpq.key]
      exact hnamed p hp hvacant x hne hstocks
    · exact (hpq.carried hvacant).2
  exact ⟨hall, evaluator_keeps fun q hq => SchemaCache.keeps_resolve (hall q hq)⟩

/-- Where predicates on one column start, their key naming the payload of one byte. -/
def namedTarget (payload? : Option Bytes) : ColumnTarget where
  family := [102]
  qualifier := [113]
  key := ⟨"demo.A", .of [1]⟩
  payload?

/-- A predicate that carries nothing, beside one with the payload that both keys name. -/
def namedGroup : PredicateGroup :=
  .of .or [.column ((namedTarget none).isEqualTo [8, 1]),
    .group .and [.column ((namedTarget (some [1])).isEqualTo [8, 2])] .empty]

theorem addressed_namedGroup : ∃ decoded, decode .standard (namedGroup.encode 0) = .ok decoded ∧
    (∀ q ∈ decoded.toFilter.leaves, q.Addressed) ∧
      Keeps SchemaCache.Addressed decoded.toFilter.evaluator := by
  have hbare : OverAll (fun _ => True) namedGroup.filters :=
    ⟨trivial, ⟨rfl, trivial, trivial⟩, trivial⟩
  have hdistinct : namedGroup.Distinct := distinct_of_bare rfl hbare
  have hfits : namedGroup.deduplicated.toFilter.Fits 0 := by decide +kernel
  have hlen : (namedGroup.encode 0).length < UInt64.size := by decide +kernel
  have hleaves : namedGroup.toFilter.leaves =
    [(namedTarget none).isEqualTo [8, 1], (namedTarget (some [1])).isEqualTo [8, 2]] := rfl
  have hkey : ∀ p ∈ namedGroup.toFilter.leaves, p.key.hash = .of [1] ∧ p.comparator? = none ∧
      ∀ x, p.payload? = some x → x = [1] := by
    rw [hleaves]
    refine List.forall_mem_cons.mpr ⟨⟨rfl, rfl, fun x hx => (by cases hx)⟩, ?_⟩
    exact List.forall_mem_singleton.mpr ⟨rfl, rfl, fun x hx => (Option.some.inj hx).symm⟩
  have haddressed : ∀ p ∈ namedGroup.toFilter.leaves, p.Addressed := by
    intro p hp x hx
    rw [(hkey p hp).1, (hkey p hp).2.2 x hx]
  have hnamed : ∀ p ∈ namedGroup.toFilter.leaves, p.Vacant →
      ∀ x ≠ [], namedGroup.toFilter.Stocks p.key.name x → p.key.hash = .of x := by
    intro p hp _ x _ hstocks
    obtain ⟨q, hq, -, hx⟩ := (stocks_of_bare rfl hbare).mp hstocks
    rw [(hkey p hp).1, (hkey q hq).2.2 x hx]
  have hrebuild : ∀ p ∈ namedGroup.toFilter.leaves, p.Rebuildable .standard := fun p hp =>
    ColumnPredicate.rebuildable_of_none (hkey p hp).2.1
  obtain ⟨decoded, hdecode⟩ := exists_decode hdistinct (by decide) hrebuild hfits hlen
  exact ⟨decoded, hdecode, (addressed_of_decode hdistinct haddressed hfits hlen hdecode).2 hnamed⟩

/-- A predicate that carries nothing, whose key names no payload, beside one with a payload. -/
def strayGroup : PredicateGroup :=
  .of .or [.column ((plainTarget "demo.A" none).isEqualTo [8, 1]),
    .column ((namedTarget (some [1])).isEqualTo [8, 2])]

/-- A key without a payload comes back with one that it does not name. -/
theorem not_addressed_strayGroup : (∀ p ∈ strayGroup.toFilter.leaves, p.Addressed) ∧
    ∃ decoded, decode .standard (strayGroup.encode 0) = .ok decoded ∧
      ∃ q ∈ decoded.toFilter.leaves, ∃ x, q.payload? = some x ∧ q.key.hash ≠ .of x := by
  have hhash : ContentHash.of [1] ≠ ⟨0⟩ := by decide +kernel
  have hfits : strayGroup.deduplicated.toFilter.Fits 0 := by decide +kernel
  have hlen : (strayGroup.encode 0).length < UInt64.size := by decide +kernel
  have hdecode : decode .standard (strayGroup.encode 0) =
      .ok (.of .or [.column ((plainTarget "demo.A" (some [1])).isEqualTo [8, 1]),
        .column ((namedTarget (some [1])).isEqualTo [8, 2])]) := by
    rw [decode_encode .standard hfits hlen]
    rfl
  refine ⟨?_, _, hdecode, _, List.mem_cons_self, [1], rfl, hhash.symm⟩
  refine List.forall_mem_cons.mpr ⟨fun x hx => (by cases hx), List.forall_mem_singleton.mpr ?_⟩
  intro x hx
  cases hx
  rfl

end PredicateGroup

end CellFilter
