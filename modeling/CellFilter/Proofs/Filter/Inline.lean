import CellFilter.Proofs.Filter.Compaction

/-!
# Payloads that stay with their predicates

When the payloads of a tree are moved out, the bundle of the outermost group has one payload for
each schema name that comes with any, and no inner group has a bundle any more.  A predicate whose
payload differs from the one in the bundle keeps it.  So does a predicate with the very payload of
the bundle if it stands in an inner group that holds another one: there it is kept, and later not
looked at again.

* `Filter.groups`: the groups in a tree.
* `Filter.Brings`: a filter with a predicate that carries a payload.
* `carried_of_compact`, `exists_carried_of_group`: which payloads stay.
* `PredicateGroup.deduplicated_inline_iff`: **what is bundled and what stays**.
-/

namespace CellFilter

open Outcome

namespace Filter

mutual

/-- The groups in a filter, which may be one itself. -/
def groups : Filter → List Filter
  | .column _ => []
  | .group op filters bundle => .group op filters bundle :: groupsAll filters

/-- The groups in filters. -/
def groupsAll : List Filter → List Filter
  | [] => []
  | f :: rest => f.groups ++ groupsAll rest

end

theorem mem_groupsAll {g : Filter} {fs : List Filter} :
    g ∈ groupsAll fs ↔ ∃ f ∈ fs, g ∈ f.groups := by
  induction fs with
  | nil => simp [groupsAll]
  | cons f fs ih => simp [groupsAll, ih]

theorem leaves_mapLeaves (change : ColumnPredicate → ColumnPredicate) (f : Filter) :
    (f.mapLeaves change).leaves = f.leaves.map change := by
  have hall : ∀ fs : List Filter, (∀ f ∈ fs, (f.mapLeaves change).leaves = f.leaves.map change) →
      leavesAll (mapAll change fs) = (leavesAll fs).map change := by
    intro fs
    induction fs with
    | nil => exact fun _ => rfl
    | cons f fs ih =>
      intro h
      rw [mapAll, leavesAll, leavesAll, List.map_append, h f List.mem_cons_self,
        ih fun g hg => h g (List.mem_cons_of_mem f hg)]
  induction f with
  | column p => rfl
  | group op fs bundle ih => exact hall fs ih

/-- Some predicate of the filter carries the payload under the name, and it is not empty. -/
def Brings (f : Filter) (name : String) (payload : Bytes) : Prop :=
  payload ≠ [] ∧ ∃ p ∈ f.leaves, p.key.name = name ∧ p.payload? = some payload

variable {f : Filter} {outer : Bundle} {name : String} {x : Bytes} {P : ColumnPredicate → Prop}

theorem Brings.group {fs : List Filter} (hf : f ∈ fs) (h : f.Brings name x) (op : Operator)
    (bundle : Bundle) : (Filter.group op fs bundle).Brings name x := by
  obtain ⟨hne, p, hp, hcarries⟩ := h
  exact ⟨hne, p, mem_leavesAll.mpr ⟨f, hf, hp⟩, hcarries⟩

/-- What a group holds one of its predicates brings. -/
theorem brings_of_held (hf : f.Over P) (h : f.held name = some x) : f.Brings name x := by
  induction f with
  | column p => cases h
  | group op fs bundle ih =>
    obtain ⟨rfl, hfs⟩ := hf
    obtain ⟨f, hmem, hoffered | hheld⟩ := exists_of_held h
    · cases f with
      | group _ _ _ => cases hoffered
      | column p =>
        obtain ⟨hname, hpayload, hne⟩ := ColumnPredicate.offer_eq_some.mp hoffered
        exact ⟨hne, p, mem_leavesAll.mpr ⟨_, hmem, List.mem_singleton.mpr rfl⟩, hname, hpayload⟩
    · exact (ih f hmem (overAll_iff.mp hfs f hmem) hheld).group hmem op .empty

/-- A group holds something under every name that its predicates bring payloads under. -/
theorem held_ne_none_of_brings {op : Operator} {fs : List Filter} {bundle : Bundle}
    (h : (Filter.group op fs bundle).Brings name x) :
    (Filter.group op fs bundle).held name ≠ none := by
  obtain ⟨hne, p, hp, rfl, hpayload⟩ := h
  exact (held_ne_none hp ⟨x, hne, hpayload⟩).resolve_left fun hnone => hnone rfl

/-- What is left of the predicates of an inner group: first each filter in it is left something of,
given the bundle of the group, then payloads are regained from that bundle. -/
theorem mem_leaves_compact_group {op : Operator} {fs : List Filter} {bundle : Bundle}
    (h : PredicateGroup.Distinct ⟨op, fs, bundle⟩) (outer : Bundle) : ∃ inner : Bundle,
      (∀ n, inner.get? n = (Filter.group op fs bundle).held n) ∧
      ∀ r, r ∈ ((Filter.group op fs bundle).compact outer).leaves ↔
        ∃ f ∈ fs, ∃ q ∈ (f.compact inner).leaves, q.regain inner outer = r := by
  refine ⟨_, PredicateGroup.get?_deduplicated h, fun r => ?_⟩
  show r ∈ leavesAll (mapAll (·.regain _ outer)
    (PredicateGroup.mk op fs bundle).deduplicated.filters) ↔ _
  rw [PredicateGroup.filters_deduplicated h, mapAll_eq_map, List.map_map, mem_leavesAll]
  simp only [List.mem_map, exists_exists_and_eq_and, Function.comp_apply, leaves_mapLeaves]

/-- A payload that stays was brought, and unless the bundle around has another one, it stands in a
group that holds another one. -/
theorem carried_of_compact (hf : f.Over P) {r : ColumnPredicate} (hr : r ∈ (f.compact outer).leaves)
    (hx : r.payload? = some x) : f.Brings r.key.name x ∧ (outer.get? r.key.name ≠ some x ∨
      ∃ g ∈ f.groups, g.Brings r.key.name x ∧ g.held r.key.name ≠ some x) := by
  induction f generalizing outer r with
  | column p =>
    obtain rfl : r = p.lighten outer := List.mem_singleton.mp hr
    rw [ColumnPredicate.lighten_key]
    unfold ColumnPredicate.lighten at hx
    cases hp : p.payload? with
    | none => simp [hp] at hx
    | some y =>
      simp only [hp] at hx
      split_ifs at hx with hlight
      · cases hx
      · obtain rfl : y = x := Option.some.inj (hp.symm.trans hx)
        obtain ⟨hne, hother⟩ : y ≠ [] ∧ outer.get? p.key.name ≠ some y := by simpa using hlight
        exact ⟨⟨hne, p, List.mem_singleton.mpr rfl, rfl, hp⟩, Or.inl hother⟩
  | group op fs bundle ih =>
    obtain ⟨rfl, hfs⟩ := hf
    obtain ⟨inner, hinner, hleaves⟩ := mem_leaves_compact_group
      (@PredicateGroup.distinct_of_bare ⟨op, fs, .empty⟩ _ rfl hfs) outer
    obtain ⟨f, hmem, q, hq, rfl⟩ := (hleaves r).mp hr
    rw [ColumnPredicate.regain_key]
    rcases q.regain_cases inner outer with ⟨hself, -⟩ | ⟨-, y, hy, hother, hback⟩
    · -- the payload stayed inside already
      rw [hself] at hx
      obtain ⟨hbrings, hstays⟩ := ih f hmem (overAll_iff.mp hfs f hmem) hq hx
      have hgroup := hbrings.group hmem op .empty
      refine ⟨hgroup, Or.inr ?_⟩
      rcases hstays with hnot | ⟨g, hg, hsplit⟩
      · exact ⟨_, List.mem_cons_self, hgroup, hinner q.key.name ▸ hnot⟩
      · exact ⟨g, List.mem_cons_of_mem _ (mem_groupsAll.mpr ⟨f, hmem, hg⟩), hsplit⟩
    · -- the payload came back
      rw [hback] at hx
      obtain rfl : y = x := Option.some.inj hx
      rw [hinner] at hy
      exact ⟨brings_of_held (P := P) ⟨rfl, hfs⟩ hy, Or.inl hother⟩

/-- A payload stays if a group has it on a predicate and holds another one. -/
theorem exists_carried_of_group (hf : f.Over P) {g : Filter} (hg : g ∈ f.groups)
    (hbrings : g.Brings name x) (hheld : g.held name ≠ some x) (outer : Bundle) :
    ∃ r ∈ (f.compact outer).leaves, r.key.name = name ∧ r.payload? = some x := by
  induction f generalizing outer with
  | column p => cases hg
  | group op fs bundle ih =>
    obtain ⟨rfl, hfs⟩ := hf
    obtain ⟨inner, hinner, hleaves⟩ := mem_leaves_compact_group
      (@PredicateGroup.distinct_of_bare ⟨op, fs, .empty⟩ _ rfl hfs) outer
    -- what stays in the bundle of this group stays further out
    have hout : (∃ f ∈ fs, ∃ q ∈ (f.compact inner).leaves,
        q.key.name = name ∧ q.payload? = some x) →
        ∃ r ∈ ((Filter.group op fs .empty).compact outer).leaves,
          r.key.name = name ∧ r.payload? = some x := by
      rintro ⟨f, hmem, q, hq, hname, hpayload⟩
      refine ⟨q, (hleaves q).mpr ⟨f, hmem, q, hq, ?_⟩, hname, hpayload⟩
      exact ColumnPredicate.regain_of_some hpayload
    apply hout
    rcases List.mem_cons.mp hg with rfl | hg
    · obtain ⟨hne, p, hp, rfl, hpayload⟩ := hbrings
      obtain ⟨f, hmem, hp⟩ := mem_leavesAll.mp hp
      have hdistinct : ∀ b ∈ f.bundles, b.names.Nodup := fun b hb => by
        rw [(over_iff.mp (overAll_iff.mp hfs f hmem)).2 b hb]
        exact List.nodup_nil
      obtain ⟨q, hq, hkept⟩ := (compact_kept hdistinct (fun _ _ h => h) inner).exists_right p hp
      refine ⟨f, hmem, q, hq, by rw [hkept.key], ?_⟩
      exact (hkept.own x hne hpayload).resolve_right fun h => hheld (hinner _ ▸ h.2)
    · obtain ⟨f, hmem, hg⟩ := mem_groupsAll.mp hg
      exact ⟨f, hmem, ih f hmem (overAll_iff.mp hfs f hmem) hg inner⟩

end Filter

namespace PredicateGroup

open CellFilter.Filter

variable {group : PredicateGroup}

/-- **What is bundled and what stays.**  Let a group have nothing in its bundles.  When its payloads
have been moved out, no inner group has anything in its bundle, and the bundle of the group has one
payload for each schema name that predicates carry payloads under, which is that of one of them.
The predicates that are left with a payload are those whose name has another payload in the bundle,
exactly if every inner group that the payload in the bundle is carried in holds it under its name,
and not another one. -/
theorem deduplicated_inline_iff (hbare : group.toFilter.Over fun _ => True) :
    (∀ b ∈ bundlesAll group.deduplicated.filters, b = .empty) ∧
    group.deduplicated.bundle.names.Nodup ∧
    (∀ n x, group.deduplicated.bundle.get? n = some x → group.toFilter.Brings n x) ∧
    (∀ n x, group.toFilter.Brings n x → ∃ y, group.deduplicated.bundle.get? n = some y) ∧
    ((∀ r ∈ leavesAll group.deduplicated.filters, ∀ x, r.payload? = some x →
        ∃ y ≠ x, group.deduplicated.bundle.get? r.key.name = some y) ↔
      ∀ g ∈ groupsAll group.filters, ∀ n x, g.Brings n x →
        group.deduplicated.bundle.get? n = some x → g.held n = some x) := by
  have h : group.Distinct := distinct_of_bare hbare.1 hbare.2
  have hbundled : ∀ n x, group.toFilter.Brings n x →
      ∃ y, group.deduplicated.bundle.get? n = some y := fun n x hbrings => by
    rw [get?_deduplicated h]
    exact Option.ne_none_iff_exists'.mp (held_ne_none_of_brings hbrings)
  refine ⟨fun b hb => bundle_inside h hb, nodup_deduplicated h, fun n x hx => ?_, hbundled, ?_⟩
  · rw [get?_deduplicated h] at hx
    exact brings_of_held hbare hx
  rw [filters_deduplicated h]
  constructor
  · intro hinline g hg n x hbrings hx
    by_contra hheld
    obtain ⟨f, hf, hg⟩ := mem_groupsAll.mp hg
    have hover := overAll_iff.mp hbare.2 f hf
    obtain ⟨r, hr, rfl, hpayload⟩ :=
      exists_carried_of_group hover hg hbrings hheld group.deduplicated.bundle
    obtain ⟨y, hne, hy⟩ :=
      hinline r (mem_leavesAll.mpr ⟨_, List.mem_map_of_mem hf, hr⟩) x hpayload
    exact hne (Option.some.inj (hy.symm.trans hx))
  · intro hheld r hr x hpayload
    obtain ⟨f', hf', hr⟩ := mem_leavesAll.mp hr
    obtain ⟨f, hf, rfl⟩ := List.mem_map.mp hf'
    obtain ⟨hbrings, hstays⟩ := carried_of_compact (overAll_iff.mp hbare.2 f hf) hr hpayload
    obtain ⟨y, hy⟩ := hbundled _ _ (hbrings.group hf group.operator group.bundle)
    refine ⟨y, ?_, hy⟩
    rintro rfl
    rcases hstays with hother | ⟨g, hg, hg', hnot⟩
    · exact hother hy
    · exact hnot (hheld g (mem_groupsAll.mpr ⟨f, hf, hg⟩) _ _ hg' hy)

/-- In the inner group the payload of the bundle comes first: it moves out, the other one stays. -/
theorem deduplicated_inline_neighbours :
    (∀ r ∈ leavesAll (neighbours (some [1])).deduplicated.filters, ∀ x, r.payload? = some x →
      ∃ y ≠ x, (neighbours (some [1])).deduplicated.bundle.get? r.key.name = some y) ∧
    (leavesAll (neighbours (some [1])).deduplicated.filters).map ColumnPredicate.payload? =
      [none, none, some [2]] := by
  have hbare : (neighbours (some [1])).toFilter.Over fun _ => True :=
    ⟨rfl, (neighbours_loaded (by decide)).imp fun _ _ => trivial⟩
  obtain ⟨-, -, -, -, hinline⟩ := deduplicated_inline_iff hbare
  refine ⟨hinline.mpr fun g hg n x _ hx => ?_, by decide +kernel⟩
  obtain rfl := List.mem_singleton.mp hg
  have hbundle : (neighbours (some [1])).deduplicated.bundle.entries = [("demo.A", [1])] := by
    decide +kernel
  rw [Bundle.get?, hbundle, Bundle.lookup_cons] at hx
  split_ifs at hx with hn
  · rw [hn, ← hx]
    decide +kernel
  · cases hx

/-- A predicate with a payload, and beside it a group in which that payload comes second. -/
def crossed : PredicateGroup :=
  .of .or [.column ((plainTarget "demo.A" (some [1])).isEqualTo [8, 1]),
    .group .and [.column ((plainTarget "demo.A" (some [2])).isEqualTo [8, 2]),
      .column ((plainTarget "demo.A" (some [1])).isEqualTo [8, 3])] .empty]

/-- The last predicate keeps its payload, although the bundle has it. -/
theorem deduplicated_inline_crossed : crossed.toFilter.Over (fun _ => True) ∧
    crossed.deduplicated.bundle.get? "demo.A" = some [1] ∧
    ∃ r ∈ leavesAll crossed.deduplicated.filters,
      r.key.name = "demo.A" ∧ r.payload? = some [1] := by
  refine ⟨⟨rfl, trivial, ⟨rfl, trivial, trivial, trivial⟩, trivial⟩, by decide +kernel, ?_⟩
  have hleaves : leavesAll crossed.deduplicated.filters =
      [(plainTarget "demo.A" none).isEqualTo [8, 1],
        (plainTarget "demo.A" (some [2])).isEqualTo [8, 2],
        (plainTarget "demo.A" (some [1])).isEqualTo [8, 3]] := rfl
  rw [hleaves]
  exact ⟨_, List.mem_cons_of_mem _ (List.mem_cons_of_mem _ List.mem_cons_self), rfl, rfl⟩

end PredicateGroup

end CellFilter
