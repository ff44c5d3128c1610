import CellFilter.Filter.Bundling
import CellFilter.Proofs.Outcome

/-!
# The leaves of a tree

Payloads are moved in and out of a tree without a change to its shape.  This module has what is said
about a tree through its leaves.

* `Filter.induct`: induction on a tree, a group having what its filters have.
* `Filter.leaves`, `Filter.bundles`: the predicates and the bundles of a tree.
* `Filter.Over`: a tree of predicates of some sort, nothing being bundled.
* `Filter.mapLeaves`: a change to each leaf, such as `restore` and `distribute`.
* `Filter.Alongside`: two trees of one shape with related leaves.
-/

namespace CellFilter

open Outcome

/-- The predicate carries the payload that belongs to its schema name, and it is not empty. -/
structure ColumnPredicate.Carries (carried : String → Bytes) (p : ColumnPredicate) : Prop where
  payload : p.payload? = some (carried p.key.name)
  nonempty : carried p.key.name ≠ []

namespace Filter

variable {P Q : ColumnPredicate → Prop}

/-- Induction on a tree. -/
@[elab_as_elim, induction_eliminator]
theorem induct {motive : Filter → Prop} (column : ∀ p, motive (.column p))
    (group : ∀ op filters bundle, (∀ f ∈ filters, motive f) → motive (.group op filters bundle)) :
    ∀ f, motive f
  | .column p => column p
  | .group op filters bundle => group op filters bundle fun f _ => induct column group f

/-! ## Predicates and bundles -/

mutual

/-- The predicates of a filter, from the first to the last. -/
def leaves : Filter → List ColumnPredicate
  | .column p => [p]
  | .group _ filters _ => leavesAll filters

/-- The predicates of filters. -/
def leavesAll : List Filter → List ColumnPredicate
  | [] => []
  | f :: rest => f.leaves ++ leavesAll rest

end

mutual

/-- The bundles of the groups in a filter. -/
def bundles : Filter → List Bundle
  | .column _ => []
  | .group _ filters bundle => bundle :: bundlesAll filters

/-- The bundles of the groups in filters. -/
def bundlesAll : List Filter → List Bundle
  | [] => []
  | f :: rest => f.bundles ++ bundlesAll rest

end

theorem mem_leavesAll {p : ColumnPredicate} {fs : List Filter} :
    p ∈ leavesAll fs ↔ ∃ f ∈ fs, p ∈ f.leaves := by
  induction fs with
  | nil => simp [leavesAll]
  | cons f fs ih => simp [leavesAll, ih]

theorem mem_bundlesAll {b : Bundle} {fs : List Filter} :
    b ∈ bundlesAll fs ↔ ∃ f ∈ fs, b ∈ f.bundles := by
  induction fs with
  | nil => simp [bundlesAll]
  | cons f fs ih => simp [bundlesAll, ih]

mutual

/-- A tree of predicates of some sort with nothing in its bundles. -/
def Over (P : ColumnPredicate → Prop) : Filter → Prop
  | .column p => P p
  | .group _ filters bundle => bundle = .empty ∧ OverAll P filters

/-- Trees of predicates of some sort. -/
def OverAll (P : ColumnPredicate → Prop) : List Filter → Prop
  | [] => True
  | f :: rest => f.Over P ∧ OverAll P rest

end

theorem overAll_iff {fs : List Filter} : OverAll P fs ↔ ∀ f ∈ fs, f.Over P := by
  induction fs with
  | nil => simp [OverAll]
  | cons f fs ih => simp [OverAll, ih]

/-- A tree is over what all of its leaves are, if nothing is bundled in it. -/
theorem over_iff {f : Filter} :
    f.Over P ↔ (∀ p ∈ f.leaves, P p) ∧ ∀ b ∈ f.bundles, b = .empty := by
  induction f with
  | column p => simp [Over, leaves, bundles]
  | group op fs bundle ih =>
    simp only [Over, leaves, bundles, overAll_iff, mem_leavesAll, List.forall_mem_cons,
      mem_bundlesAll]
    constructor
    · rintro ⟨hbare, hall⟩
      refine ⟨?_, hbare, ?_⟩
      · rintro p ⟨f, hf, hp⟩
        exact ((ih f hf).mp (hall f hf)).1 p hp
      · rintro b ⟨f, hf, hb⟩
        exact ((ih f hf).mp (hall f hf)).2 b hb
    · rintro ⟨hleaves, hbare, hbundles⟩
      exact ⟨hbare, fun f hf => (ih f hf).mpr
        ⟨fun p hp => hleaves p ⟨f, hf, hp⟩, fun b hb => hbundles b ⟨f, hf, hb⟩⟩⟩

theorem Over.imp {f : Filter} (h : f.Over P) (hpq : ∀ p ∈ f.leaves, P p → Q p) : f.Over Q :=
  over_iff.mpr ⟨fun p hp => hpq p hp ((over_iff.mp h).1 p hp), (over_iff.mp h).2⟩

theorem OverAll.imp {fs : List Filter} (h : OverAll P fs) (hpq : ∀ p, P p → Q p) : OverAll Q fs :=
  overAll_iff.mpr fun f hf => (overAll_iff.mp h f hf).imp fun p _ => hpq p

/-! ## Changes to each leaf -/

mutual

/-- A filter with every predicate changed. -/
def mapLeaves (change : ColumnPredicate → ColumnPredicate) : Filter → Filter
  | .column p => .column (change p)
  | .group op filters bundle => .group op (mapAll change filters) bundle

/-- Filters with every predicate changed. -/
def mapAll (change : ColumnPredicate → ColumnPredicate) : List Filter → List Filter
  | [] => []
  | f :: rest => f.mapLeaves change :: mapAll change rest

end

variable {change change' : ColumnPredicate → ColumnPredicate}

theorem mapAll_eq_map (fs : List Filter) : mapAll change fs = fs.map (mapLeaves change) := by
  induction fs with
  | nil => rfl
  | cons f fs ih => rw [mapAll, List.map_cons, ih]

theorem mapLeaves_congr {f : Filter} (h : ∀ p ∈ f.leaves, change p = change' p) :
    f.mapLeaves change = f.mapLeaves change' := by
  induction f with
  | column p => rw [mapLeaves, mapLeaves, h p (List.mem_singleton.mpr rfl)]
  | group op fs bundle ih =>
    simp only [mapLeaves, mapAll_eq_map]
    congr 1
    exact List.map_congr_left fun f hf =>
      ih f hf fun p hp => h p (mem_leavesAll.mpr ⟨f, hf, hp⟩)

theorem mapLeaves_mapLeaves (f : Filter) :
    (f.mapLeaves change).mapLeaves change' = f.mapLeaves fun p => change' (change p) := by
  induction f with
  | column p => rfl
  | group op fs bundle ih =>
    simp only [mapLeaves, mapAll_eq_map, List.map_map]
    congr 1
    exact List.map_congr_left ih

theorem mapLeaves_self {f : Filter} (h : ∀ p ∈ f.leaves, change p = p) :
    f.mapLeaves change = f := by
  induction f with
  | column p => rw [mapLeaves, h p (List.mem_singleton.mpr rfl)]
  | group op fs bundle ih =>
    have hall : ∀ f ∈ fs, f.mapLeaves change = f := fun f hf =>
      ih f hf fun p hp => h p (mem_leavesAll.mpr ⟨f, hf, hp⟩)
    rw [mapLeaves, mapAll_eq_map, List.map_congr_left hall, List.map_id']

theorem mapAll_congr {fs : List Filter} (h : ∀ p ∈ leavesAll fs, change p = change' p) :
    mapAll change fs = mapAll change' fs := by
  simp only [mapAll_eq_map]
  exact List.map_congr_left fun f hf =>
    mapLeaves_congr fun p hp => h p (mem_leavesAll.mpr ⟨f, hf, hp⟩)

theorem mapAll_mapAll (fs : List Filter) :
    mapAll change' (mapAll change fs) = mapAll (fun p => change' (change p)) fs := by
  simp only [mapAll_eq_map, List.map_map]
  exact List.map_congr_left fun f _ => mapLeaves_mapLeaves f

theorem mapAll_self {fs : List Filter} (h : ∀ p ∈ leavesAll fs, change p = p) :
    mapAll change fs = fs := by
  have hall : ∀ f ∈ fs, f.mapLeaves change = f := fun f hf =>
    mapLeaves_self fun p hp => h p (mem_leavesAll.mpr ⟨f, hf, hp⟩)
  rw [mapAll_eq_map, List.map_congr_left hall, List.map_id']

theorem restoreAll_eq (name : String) (payload : Bytes) (fs : List Filter) :
    restoreAll name payload fs = mapAll (·.restore name payload) fs := by
  have hmap : ∀ fs, restoreAll name payload fs = fs.map (restore name payload) := by
    intro fs
    induction fs with
    | nil => rfl
    | cons f fs ih => rw [restoreAll, List.map_cons, ih]
  have hone : ∀ f, restore name payload f = f.mapLeaves (·.restore name payload) := by
    intro f
    induction f with
    | column p => rfl
    | group op fs bundle ih =>
      rw [restore, mapLeaves, hmap, mapAll_eq_map, List.map_congr_left ih]
  rw [hmap, mapAll_eq_map]
  exact List.map_congr_left fun f _ => hone f

theorem distributeAll_eq (bundle : Bundle) (fs : List Filter) :
    distributeAll bundle fs = mapAll (·.receive bundle) fs := by
  have hmap : ∀ fs, distributeAll bundle fs = fs.map (distribute bundle) := by
    intro fs
    induction fs with
    | nil => rfl
    | cons f fs ih => rw [distributeAll, List.map_cons, ih]
  have hone : ∀ f, distribute bundle f = f.mapLeaves (·.receive bundle) := by
    intro f
    induction f with
    | column p => rfl
    | group op fs inner ih =>
      rw [distribute, mapLeaves, hmap, mapAll_eq_map, List.map_congr_left ih]
  rw [hmap, mapAll_eq_map]
  exact List.map_congr_left fun f _ => hone f

/-! ## Trees of one shape -/

/-- Two trees of one shape: the operators are the same, the leaves are related one by one, and the
second tree has nothing in its bundles. -/
inductive Alongside (r : ColumnPredicate → ColumnPredicate → Prop) : Filter → Filter → Prop
  | column {p q : ColumnPredicate} : r p q → Alongside r (.column p) (.column q)
  | group {op : Operator} {fs gs : List Filter} {bundle : Bundle} :
      List.Forall₂ (Alongside r) fs gs →
      Alongside r (.group op fs bundle) (.group op gs .empty)

section Alongside

variable {r s t : ColumnPredicate → ColumnPredicate → Prop} {f g h : Filter}

/-- Leaves of two trees that are related by one relation are related by another. -/
theorem Alongside.imp_of_mem (hfg : Alongside r f g)
    (himp : ∀ p ∈ f.leaves, ∀ q ∈ g.leaves, r p q → s p q) : Alongside s f g := by
  induction f generalizing g with
  | column p =>
    cases hfg with
    | @column _ q hr =>
      exact .column (himp p (List.mem_singleton.mpr rfl) q (List.mem_singleton.mpr rfl) hr)
  | group op fs bundle ih =>
    cases hfg with
    | group hall =>
      refine .group (forall₂_imp_of_mem hall fun f hf g hg hfg => ih f hf hfg ?_)
      exact fun p hp q hq =>
        himp p (mem_leavesAll.mpr ⟨f, hf, hp⟩) q (mem_leavesAll.mpr ⟨g, hg, hq⟩)

theorem Alongside.imp (hfg : Alongside r f g) (himp : ∀ p q, r p q → s p q) : Alongside s f g :=
  hfg.imp_of_mem fun p _ q _ => himp p q

theorem Alongside.trans (hfg : Alongside r f g) (hgh : Alongside s g h)
    (htrans : ∀ p q u, r p q → s q u → t p u) : Alongside t f h := by
  induction g generalizing f h with
  | column q =>
    cases hfg with
    | column hr =>
      cases hgh with
      | column hs => exact .column (htrans _ q _ hr hs)
  | group op gs bundle ih =>
    cases hfg with
    | group hfs =>
      cases hgh with
      | group hhs =>
        exact .group (forall₂_of_common hfs.flip hhs fun g hg f h hfg hgh => ih g hg hfg hgh)

theorem Alongside.and (hr : Alongside r f g) (hs : Alongside s f g) :
    Alongside (fun p q => r p q ∧ s p q) f g := by
  induction f generalizing g with
  | column p =>
    cases hr with
    | column hr =>
      cases hs with
      | column hs => exact .column ⟨hr, hs⟩
  | group op fs bundle ih =>
    cases hr with
    | group hrs =>
      cases hs with
      | group hss =>
        exact .group (forall₂_imp_of_mem (forall₂_and hrs hss) fun f hf g _ hfg =>
          ih f hf hfg.1 hfg.2)

/-- A change to each leaf of the second tree. -/
theorem Alongside.mapLeaves {change : ColumnPredicate → ColumnPredicate} (hfg : Alongside r f g)
    (hchange : ∀ p q, r p q → s p (change q)) : Alongside s f (g.mapLeaves change) := by
  induction f generalizing g with
  | column p =>
    cases hfg with
    | column hr => exact .column (hchange p _ hr)
  | group op fs bundle ih =>
    cases hfg with
    | group hall =>
      rw [Filter.mapLeaves, mapAll_eq_map]
      exact .group (List.forall₂_map_right_iff.mpr
        (forall₂_imp_of_mem hall fun f hf g _ hfg => ih f hf hfg))

theorem Alongside.mapAll {change : ColumnPredicate → ColumnPredicate} {fs gs : List Filter}
    (hall : List.Forall₂ (Alongside r) fs gs) (hchange : ∀ p q, r p q → s p (change q)) :
    List.Forall₂ (Alongside s) fs (mapAll change gs) := by
  rw [mapAll_eq_map]
  exact List.forall₂_map_right_iff.mpr (hall.imp fun _ _ hfg => hfg.mapLeaves hchange)

/-- Nothing is bundled in the second tree. -/
theorem Alongside.bare (hfg : Alongside r f g) : g.Over fun _ => True := by
  induction f generalizing g with
  | column p =>
    cases hfg
    trivial
  | group op fs bundle ih =>
    cases hfg with
    | group hall =>
      refine ⟨rfl, overAll_iff.mpr fun g hg => ?_⟩
      obtain ⟨f, hf, hfg⟩ := forall₂_right_mem hall g hg
      exact ih f hf hfg

/-- Trees with the same leaves are the same, if nothing is bundled in the first one either. -/
theorem Alongside.eq (hfg : Alongside Eq f g) (hf : f.Over P) : f = g := by
  induction f generalizing g with
  | column p =>
    cases hfg with
    | column hr => rw [hr]
  | group op fs bundle ih =>
    cases hfg with
    | @group _ _ gs _ hall =>
      obtain ⟨rfl, hfs⟩ := hf
      have hsame : fs = gs := by
        rw [← List.forall₂_eq_eq_eq]
        exact forall₂_imp_of_mem hall fun f hf g _ hfg => ih f hf hfg (overAll_iff.mp hfs f hf)
      rw [hsame]

theorem Over.alongside_self (hf : f.Over P) : Alongside Eq f f := by
  induction f with
  | column p => exact .column rfl
  | group op fs bundle ih =>
    obtain ⟨rfl, hfs⟩ := hf
    exact .group (List.forall₂_same.mpr fun f hmem => ih f hmem (overAll_iff.mp hfs f hmem))

/-- Every leaf of the first tree has its partner in the second one. -/
theorem Alongside.exists_right (hfg : Alongside r f g) :
    ∀ p ∈ f.leaves, ∃ q ∈ g.leaves, r p q := by
  induction f generalizing g with
  | column p =>
    cases hfg with
    | column hr => simpa [leaves] using hr
  | group op fs bundle ih =>
    cases hfg with
    | group hall =>
      intro p hp
      obtain ⟨f, hf, hp⟩ := mem_leavesAll.mp hp
      obtain ⟨g, hg, hfg⟩ := forall₂_left_mem hall f hf
      obtain ⟨q, hq, hr⟩ := ih f hf hfg p hp
      exact ⟨q, mem_leavesAll.mpr ⟨g, hg, hq⟩, hr⟩

/-- Every leaf of the second tree has its partner in the first one. -/
theorem Alongside.exists_left (hfg : Alongside r f g) :
    ∀ q ∈ g.leaves, ∃ p ∈ f.leaves, r p q := by
  induction f generalizing g with
  | column p =>
    cases hfg with
    | column hr => simpa [leaves] using hr
  | group op fs bundle ih =>
    cases hfg with
    | group hall =>
      intro q hq
      obtain ⟨g, hg, hq⟩ := mem_leavesAll.mp hq
      obtain ⟨f, hf, hfg⟩ := forall₂_right_mem hall g hg
      obtain ⟨p, hp, hr⟩ := ih f hf hfg q hq
      exact ⟨p, mem_leavesAll.mpr ⟨f, hf, hp⟩, hr⟩

end Alongside

end Filter

end CellFilter
