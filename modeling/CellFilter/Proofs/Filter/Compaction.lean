import CellFilter.Proofs.Filter.Returning

/-!
# Moving payloads out twice

When every predicate of a tree carries a payload, moving the payloads out leaves a predicate without
its payload exactly if all groups around it hold that payload under its name.  Moving the payloads
of the result out again need not leave it as it is: an inner group does not know that some of its
predicates rely on the bundle of the outermost group.

* `Filter.packed`: what is left of a tree, by the payloads that the groups around it hold.
* `compact_eq_packed`: moving payloads out in these terms.
* `Filter.Uniform`: a filter whose predicates of one name are all with or all without payloads.
* `PredicateGroup.deduplicated_twice_iff`: the trees that stay as they are.
-/

namespace CellFilter

open Outcome

namespace ColumnPredicate

variable {p : ColumnPredicate} {inner outer : Bundle} {out : String → Bytes → Bool}

/-- The predicate without a payload that is let out. -/
def leave (out : String → Bytes → Bool) (p : ColumnPredicate) : ColumnPredicate :=
  match p.payload? with
  | none => p
  | some payload => if out p.key.name payload then p.withoutPayload else p

theorem leave_of_none (hp : p.payload? = none) : p.leave out = p := by
  rw [leave, hp]

theorem leave_of_out {x : Bytes} (hp : p.payload? = some x) (hout : out p.key.name x = true) :
    p.leave out = p.withoutPayload := by
  rw [leave, hp]
  exact if_pos hout

theorem leave_of_not_out {x : Bytes} (hp : p.payload? = some x) (hout : out p.key.name x = false) :
    p.leave out = p := by
  rw [leave, hp]
  simp [hout]

theorem leave_leave (out : String → Bytes → Bool) (p : ColumnPredicate) :
    (p.leave out).leave out = p.leave out := by
  cases hp : p.payload? with
  | none => rw [leave_of_none hp, leave_of_none hp]
  | some x =>
    cases hout : out p.key.name x with
    | true =>
      rw [leave_of_out hp hout]
      rfl
    | false => rw [leave_of_not_out hp hout, leave_of_not_out hp hout]

theorem leave_key (out : String → Bytes → Bool) (p : ColumnPredicate) :
    (p.leave out).key = p.key := by
  unfold leave
  split
  · rfl
  · split_ifs <;> rfl

theorem lighten_eq_leave (h : p.Loaded) (bundle : Bundle) :
    p.lighten bundle = p.leave fun n x => bundle.get? n == some x := by
  obtain ⟨x, hne, hx⟩ := h
  rw [lighten, leave, hx]
  simp [hne]

/-- What has been let out is regained unless the outer bundle has it. -/
theorem regain_leave (h : p.Loaded) (hinner : ∀ n x, out n x = true → inner.get? n = some x) :
    (p.leave out).regain inner outer = p.leave fun n x => outer.get? n == some x && out n x := by
  obtain ⟨x, hne, hx⟩ := h
  cases hout : out p.key.name x with
  | false =>
    rw [leave_of_not_out hx hout, regain_of_some hx, leave_of_not_out hx (by simp [hout])]
  | true =>
    rw [leave_of_out hx hout]
    by_cases houter : outer.get? p.key.name = some x
    · rw [leave_of_out hx (by simp [hout, houter])]
      refine regain_eq_self fun y hy => ?_
      have hsame : inner.get? p.key.name = some y := hy
      rw [hinner _ _ hout] at hsame
      rw [← hsame]
      exact houter
    · have hback : p.withoutPayload.regain inner outer = p.withoutPayload.withPayload x :=
        regain_of_none rfl (hinner _ _ hout) houter
      rw [leave_of_not_out hx (by simp [houter]), hback, withPayload, withoutPayload, ← hx]

end ColumnPredicate

namespace Filter

/-- What is let out inside of a group: what is let out of it, if the group holds it too. -/
def narrowed (out : String → Bytes → Bool) (group : Filter) (name : String) (payload : Bytes) :
    Bool :=
  out name payload && group.held name == some payload

mutual

/-- A tree whose predicates are without the payloads that `out` lets out and that all groups around
them hold. -/
def packed (out : String → Bytes → Bool) : Filter → Filter
  | .column p => .column (p.leave out)
  | .group op filters bundle =>
    .group op (packedAll (narrowed out (.group op filters bundle)) filters) .empty

/-- Trees without such payloads. -/
def packedAll (out : String → Bytes → Bool) : List Filter → List Filter
  | [] => []
  | f :: rest => f.packed out :: packedAll out rest

end

variable {f : Filter} {outer : Bundle} {out : String → Bytes → Bool} {P : ColumnPredicate → Prop}

theorem packedAll_eq_map (out : String → Bytes → Bool) (fs : List Filter) :
    packedAll out fs = fs.map (packed out) := by
  induction fs with
  | nil => rfl
  | cons f fs ih => rw [packedAll, List.map_cons, ih]

theorem regain_packed (hf : f.Over ColumnPredicate.Loaded) {inner : Bundle}
    (hinner : ∀ n x, out n x = true → inner.get? n = some x) :
    (f.packed out).mapLeaves (·.regain inner outer) =
      f.packed fun n x => outer.get? n == some x && out n x := by
  induction f generalizing out with
  | column p => rw [packed, mapLeaves, packed, ColumnPredicate.regain_leave hf hinner]
  | group op fs bundle ih =>
    simp only [packed, mapLeaves, mapAll_eq_map, packedAll_eq_map, List.map_map]
    congr 1
    refine List.map_congr_left fun f hmem => ?_
    have hnarrowed : ∀ n x, narrowed out (.group op fs bundle) n x = true → inner.get? n = some x :=
      fun n x h => hinner n x (Bool.and_eq_true _ _ ▸ h).1
    rw [Function.comp_apply, ih f hmem (overAll_iff.mp hf.2 f hmem) hnarrowed]
    congr 1
    funext n x
    rw [narrowed, narrowed, Bool.and_assoc]

/-- **Moving payloads out** of a filter all of whose predicates carry some. -/
theorem compact_eq_packed (hf : f.Over ColumnPredicate.Loaded) (outer : Bundle) :
    f.compact outer = f.packed fun n x => outer.get? n == some x := by
  induction f generalizing outer with
  | column p =>
    rw [packed, ← ColumnPredicate.lighten_eq_leave hf]
    rfl
  | group op fs bundle ih =>
    obtain ⟨rfl, hfs⟩ := hf
    have hdistinct : PredicateGroup.Distinct ⟨op, fs, .empty⟩ :=
      PredicateGroup.distinct_of_bare rfl hfs
    have hheld : ∀ n, (PredicateGroup.deduplicated ⟨op, fs, .empty⟩).bundle.get? n =
        (Filter.group op fs .empty).held n := PredicateGroup.get?_deduplicated hdistinct
    show Filter.group op (mapAll _ _) .empty = _
    rw [packed, PredicateGroup.filters_deduplicated hdistinct, mapAll_eq_map, packedAll_eq_map,
      List.map_map]
    congr 1
    refine List.map_congr_left fun f hmem => ?_
    have hone := overAll_iff.mp hfs f hmem
    rw [Function.comp_apply, ih f hmem hone, regain_packed hone fun n x h => by simpa using h]
    congr 1
    funext n x
    rw [narrowed, hheld]

/-- Each predicate is as before, or without a payload that is let out. -/
theorem packed_alongside (out : String → Bytes → Bool) (f : Filter) :
    Alongside (fun p q => q = p ∨ q = p.withoutPayload ∧ ∃ x ∈ p.payload?, out p.key.name x = true)
      f (f.packed out) := by
  induction f generalizing out with
  | column p =>
    refine .column ?_
    cases hp : p.payload? with
    | none => exact Or.inl (ColumnPredicate.leave_of_none hp)
    | some x =>
      cases hout : out p.key.name x with
      | true => exact Or.inr ⟨ColumnPredicate.leave_of_out hp hout, x, rfl, hout⟩
      | false => exact Or.inl (ColumnPredicate.leave_of_not_out hp hout)
  | group op fs bundle ih =>
    rw [packed, packedAll_eq_map]
    refine .group (List.forall₂_map_right_iff.mpr (List.forall₂_same.mpr fun f hmem => ?_))
    refine (ih f hmem (narrowed out (.group op fs bundle))).imp fun p q h => h.imp id ?_
    exact fun ⟨hq, x, hx, hout⟩ => ⟨hq, x, hx, (Bool.and_eq_true _ _ ▸ hout).1⟩

/-- A predicate that is left without a payload has let one out. -/
theorem out_of_mem_packed (hf : f.Over ColumnPredicate.Loaded) {q : ColumnPredicate}
    (hq : q ∈ (f.packed out).leaves) :
    q.Loaded ∨ q.payload? = none ∧ ∃ x, out q.key.name x = true := by
  obtain ⟨p, hp, rfl | ⟨rfl, x, -, hout⟩⟩ := (packed_alongside out f).exists_left q hq
  · exact Or.inl ((over_iff.mp hf).1 _ hp)
  · exact Or.inr ⟨rfl, x, hout⟩

/-! ## The second time -/

variable {name : String} {x : Bytes}

/-- A group holds what one of its filters offers or holds. -/
theorem exists_of_held {op : Operator} {fs : List Filter}
    (h : (Filter.group op fs .empty).held name = some x) :
    ∃ f ∈ fs, f.offered name = some x ∨ f.held name = some x := by
  rw [held, heldAmong_eq] at h
  rcases Option.or_eq_some_iff.mp h with hempty | ⟨-, h⟩
  · cases hempty
  · rcases Option.or_eq_some_iff.mp h with h | ⟨-, h⟩
    · obtain ⟨f, hf, hone⟩ := List.exists_of_findSome?_eq_some h
      exact ⟨f, hf, Or.inl hone⟩
    · obtain ⟨f, hf, hone⟩ := List.exists_of_findSome?_eq_some h
      exact ⟨f, hf, Or.inr hone⟩

/-- The payload that is let out under a name. -/
def LetsOut (out : String → Bytes → Bool) (name : String) (x : Bytes) : Prop :=
  ∀ y, out name y = true ↔ y = x

/-- What a bundle has is let out into it. -/
theorem letsOut_of_get? {bundle : Bundle} (h : bundle.get? name = some x) :
    LetsOut (fun n y => bundle.get? n == some y) name x := by
  intro y
  show (bundle.get? name == some y) = true ↔ y = x
  rw [h, beq_iff_eq, Option.some.injEq, eq_comm]

theorem LetsOut.narrowed (h : LetsOut out name x) (hheld : f.held name = some x) :
    LetsOut (narrowed out f) name x := by
  intro y
  rw [Filter.narrowed, Bool.and_eq_true, h, hheld, beq_iff_eq, Option.some.injEq]
  exact ⟨And.left, fun h => ⟨h, h.symm⟩⟩

/-- A group that does not hold it keeps it from being let out. -/
theorem LetsOut.narrowed_eq_false (h : LetsOut out name x) (hheld : f.held name ≠ some x)
    (y : Bytes) : Filter.narrowed out f name y = false := by
  rw [Filter.narrowed, Bool.and_eq_false_iff, ← Bool.not_eq_true, h, beq_eq_false_iff_ne]
  by_cases hy : y = x
  · exact Or.inr (hy ▸ hheld)
  · exact Or.inl hy

/-- Filters that offer and hold the same make groups that hold the same. -/
theorem held_packed_group {op : Operator} {fs : List Filter} (h : ∀ f ∈ fs,
    (f.packed (narrowed out (.group op fs .empty))).offered name = f.offered name ∧
      (f.packed (narrowed out (.group op fs .empty))).held name = f.held name) :
    ((Filter.group op fs .empty).packed out).held name = (Filter.group op fs .empty).held name := by
  have hoffered : (fs.map (packed (narrowed out (.group op fs .empty)))).findSome? (offered name) =
      fs.findSome? (offered name) := by
    rw [List.findSome?_map]
    exact findSome?_congr fun f hmem => (h f hmem).1
  have hheld : (fs.map (packed (narrowed out (.group op fs .empty)))).findSome? (held name) =
      fs.findSome? (held name) := by
    rw [List.findSome?_map]
    exact findSome?_congr fun f hmem => (h f hmem).2
  rw [packed, held, held, heldAmong_eq, heldAmong_eq, packedAll_eq_map, hoffered, hheld]

/-- If nothing is let out under a name, what is held under it stays the same. -/
theorem held_packed_of_closed (hf : f.Over P) (hclosed : ∀ y, out name y = false) :
    (f.packed out).offered name = f.offered name ∧ (f.packed out).held name = f.held name := by
  induction f generalizing out with
  | column p =>
    refine ⟨?_, rfl⟩
    show (p.leave out).offer name = p.offer name
    by_cases hname : p.key.name = name
    · have hsame : p.leave out = p := by
        cases hp : p.payload? with
        | none => exact ColumnPredicate.leave_of_none hp
        | some y => exact ColumnPredicate.leave_of_not_out hp (hname ▸ hclosed y)
      rw [hsame]
    · rw [ColumnPredicate.offer, ColumnPredicate.offer, ColumnPredicate.leave_key, if_neg hname,
        if_neg hname]
  | group op fs bundle ih =>
    obtain ⟨rfl, hfs⟩ := hf
    refine ⟨rfl, held_packed_group fun f hmem => ih f hmem (overAll_iff.mp hfs f hmem) fun y => ?_⟩
    rw [narrowed, hclosed, Bool.false_and]

/-- A payload that is let out under a name is not what a group holds under it afterwards: either the
group has held it and has let it out everywhere, or it holds another one as before. -/
theorem held_packed_ne (hf : f.Over P) (hlets : LetsOut out name x) :
    (f.packed out).offered name ≠ some x ∧ (f.packed out).held name ≠ some x := by
  induction f generalizing out with
  | column p =>
    refine ⟨fun hoffered => ?_, fun hheld => by cases hheld⟩
    obtain ⟨hname, hpayload, -⟩ := ColumnPredicate.offer_eq_some.mp hoffered
    rw [ColumnPredicate.leave_key] at hname
    cases hp : p.payload? with
    | none =>
      rw [ColumnPredicate.leave_of_none hp, hp] at hpayload
      cases hpayload
    | some y =>
      cases hout : out p.key.name y with
      | true =>
        rw [ColumnPredicate.leave_of_out hp hout] at hpayload
        cases hpayload
      | false =>
        rw [ColumnPredicate.leave_of_not_out hp hout, hp] at hpayload
        cases hpayload
        rw [hname, (hlets x).mpr rfl] at hout
        cases hout
  | group op fs bundle ih =>
    obtain ⟨rfl, hfs⟩ := hf
    refine ⟨fun hoffered => (by cases hoffered), fun hheld => ?_⟩
    by_cases hsame : (Filter.group op fs .empty).held name = some x
    · obtain ⟨f', hf', hgives⟩ := exists_of_held hheld
      rw [packedAll_eq_map] at hf'
      obtain ⟨f, hmem, rfl⟩ := List.mem_map.mp hf'
      obtain ⟨hoffered, hheld⟩ :=
        ih f hmem (overAll_iff.mp hfs f hmem) (hlets.narrowed hsame)
      exact hgives.elim hoffered hheld
    · rw [held_packed_group fun f hmem => held_packed_of_closed (overAll_iff.mp hfs f hmem)
        (hlets.narrowed_eq_false hsame)] at hheld
      exact hsame hheld

/-- A name with a payload in a group is held by it. -/
theorem held_ne_none {p : ColumnPredicate} (hp : p ∈ f.leaves) (hloaded : p.Loaded) :
    f.offered p.key.name ≠ none ∨ f.held p.key.name ≠ none := by
  induction f with
  | column q =>
    obtain rfl := List.mem_singleton.mp hp
    obtain ⟨x, hne, hx⟩ := hloaded
    left
    show p.offer p.key.name ≠ none
    rw [ColumnPredicate.offer_eq_some.mpr ⟨rfl, hx, hne⟩]
    simp
  | group op fs bundle ih =>
    obtain ⟨f, hf, hp⟩ := mem_leavesAll.mp hp
    right
    intro hnone
    rw [held, heldAmong_eq, Option.or_eq_none_iff, Option.or_eq_none_iff,
      List.findSome?_eq_none_iff, List.findSome?_eq_none_iff] at hnone
    exact (ih f hf hp).elim (fun h => h (hnone.2.1 f hf)) fun h => h (hnone.2.2 f hf)

theorem packedAll_bare (out : String → Bytes → Bool) (fs : List Filter) :
    OverAll (fun _ => True) (packedAll out fs) := by
  refine overAll_iff.mpr fun f' hf' => ?_
  rw [packedAll_eq_map] at hf'
  obtain ⟨f, -, rfl⟩ := List.mem_map.mp hf'
  exact (packed_alongside out f).bare

/-- A predicate that was left without its payload does not get it back. -/
structure Parted (out : String → Bytes → Bool) (q r : ColumnPredicate) : Prop where
  key : r.key = q.key
  apart : q.payload? = none → ∀ x, LetsOut out q.key.name x → r.payload? ≠ some x

/-- What a group does not let out none of its filters was left without. -/
theorem Parted.of_narrowed {group : Filter} {q r : ColumnPredicate}
    (hf : f.Over ColumnPredicate.Loaded) (hq : q ∈ (f.packed (narrowed out group)).leaves)
    (h : Parted (narrowed out group) q r) : Parted out q r where
  key := h.key
  apart := by
    intro hnone x hlets
    by_cases hheld : group.held q.key.name = some x
    · exact h.apart hnone x (hlets.narrowed hheld)
    · rcases out_of_mem_packed hf hq with ⟨y, -, hy⟩ | ⟨-, y, hy⟩
      · rw [hnone] at hy
        cases hy
      · rw [hlets.narrowed_eq_false hheld] at hy
        cases hy

/-- What is regained is held by the group that is left, hence not what was let out. -/
theorem Parted.regain {inner : Bundle} {q r : ColumnPredicate} (h : Parted out q r)
    (hinner : ∀ x, inner.get? q.key.name = some x → ¬ LetsOut out q.key.name x) (outer : Bundle) :
    Parted out q (r.regain inner outer) where
  key := by rw [ColumnPredicate.regain_key, h.key]
  apart := by
    intro hnone x hlets
    rcases r.regain_cases inner outer with ⟨hself, -⟩ | ⟨-, y, hy, -, hback⟩
    · rw [hself]
      exact h.apart hnone x hlets
    · rw [hback]
      rintro ⟨⟩
      exact hinner _ (h.key ▸ hy) hlets

/-- A predicate that has let out a payload does not get it back when payloads are moved out
again. -/
theorem compact_packed_parted (out : String → Bytes → Bool) (hf : f.Over ColumnPredicate.Loaded)
    (outer : Bundle) : Alongside (Parted out) (f.packed out) ((f.packed out).compact outer) := by
  induction f generalizing out outer with
  | column p =>
    refine .column ⟨ColumnPredicate.lighten_key _ _, fun hnone x _ => ?_⟩
    rw [ColumnPredicate.lighten_of_none hnone, hnone]
    simp
  | group op fs bundle ih =>
    obtain ⟨rfl, hfs⟩ := hf
    have hdistinct : PredicateGroup.Distinct ⟨op, _, .empty⟩ :=
      PredicateGroup.distinct_of_bare rfl (packedAll_bare (narrowed out (.group op fs .empty)) fs)
    have hinner := PredicateGroup.get?_deduplicated hdistinct
    show Alongside _ (.group op _ .empty) (.group op (mapAll _ _) .empty)
    rw [PredicateGroup.filters_deduplicated hdistinct]
    generalize (PredicateGroup.deduplicated ⟨op, packedAll _ fs, .empty⟩).bundle = inner at hinner ⊢
    have hchildren : List.Forall₂ (Alongside (Parted out))
        (packedAll (narrowed out (.group op fs .empty)) fs)
        ((packedAll (narrowed out (.group op fs .empty)) fs).map (compact inner)) := by
      rw [List.forall₂_map_right_iff, List.forall₂_same, packedAll_eq_map, List.forall_mem_map]
      intro f hmem
      have hone := overAll_iff.mp hfs f hmem
      exact (ih f hmem _ hone inner).imp_of_mem fun q hq r _ hqr => hqr.of_narrowed hone hq
    refine .group (Alongside.mapAll hchildren fun q r hqr => hqr.regain (fun x hx hlets => ?_) outer)
    rw [hinner] at hx
    exact (held_packed_ne (f := .group op fs .empty) ⟨rfl, hfs⟩ hlets).2 hx

/-- Of the predicates of one name in the filter, all have payloads or none has. -/
def Uniform (f : Filter) : Prop := ∀ p ∈ f.leaves, ∀ q ∈ f.leaves, p.key.name = q.key.name →
  p.payload?.isSome = q.payload?.isSome

instance (f : Filter) : Decidable f.Uniform :=
  inferInstanceAs (Decidable (∀ p ∈ f.leaves, ∀ q ∈ f.leaves, p.key.name = q.key.name →
    p.payload?.isSome = q.payload?.isSome))

/-- A predicate that was left by moving payloads out, when they are moved out again: it stays as it
is, unless it has no payload and another predicate of its name in the inner group has one. -/
structure Again (c : Filter) (bundle : Bundle) (q r : ColumnPredicate) : Prop where
  carrying : q.payload? ≠ none → r = q
  alone : q.payload? = none → (∀ u ∈ c.leaves, u.key.name = q.key.name → u.payload? = none) → r = q
  mixed : q.payload? = none → (∃ u ∈ c.leaves, u.key.name = q.key.name ∧ u.payload? ≠ none) →
    ∃ z ≠ [], r.payload? = some z ∧ bundle.get? q.key.name ≠ some z

/-- What becomes of a predicate of an inner group `c`, given what the group holds. -/
theorem again_of_kept {c : Filter} {inner bundle : Bundle} {q q' : ColumnPredicate}
    (hq : q ∈ c.leaves) (hkept : ColumnPredicate.Kept c.Stocks inner q q')
    (hinner : ∀ n, inner.get? n = c.held n)
    (hfree : ∀ n x, c.held n = some x → bundle.get? n ≠ some x)
    (hstocks : ∀ n x, c.Stocks n x → ∃ u ∈ c.leaves, u.key.name = n ∧ u.payload? = some x)
    (hloaded : ∀ u ∈ c.leaves, u.payload? ≠ none → u.Loaded ∧ c.held u.key.name ≠ none)
    (hnever : q.payload? = none → ∀ x, bundle.get? q.key.name = some x →
      (q'.regain inner bundle).payload? ≠ some x) :
    Again c bundle q (q'.regain inner bundle) where
  carrying := by
    intro hsome
    obtain ⟨x, hne, hx⟩ := (hloaded q hq hsome).1
    rcases hkept.own x hne hx with hhere | ⟨hnone, hbundle⟩
    · rw [hkept.eq_of_payload (hhere.trans hx.symm), ColumnPredicate.regain_of_some hx]
    · have hother : bundle.get? q'.key.name ≠ some x := by
        rw [hkept.key]
        exact hfree _ x (by rw [← hinner, hbundle])
      rw [ColumnPredicate.regain_of_none hnone (by rw [hkept.key, hbundle]) hother,
        ColumnPredicate.withPayload, hkept.rest, ← hx]
  alone := by
    intro hnone hall
    have hempty : ∀ x, ¬ c.Stocks q.key.name x := by
      intro x hx
      obtain ⟨u, hu, hname, hpayload⟩ := hstocks _ x hx
      rw [hall u hu hname] at hpayload
      cases hpayload
    have hsame : q' = q := by
      refine hkept.eq_of_payload (hnone ▸ Option.eq_none_iff_forall_ne_some.mpr fun x hx => ?_)
      exact hempty x (hkept.known_of_none hnone hx)
    rw [hsame]
    refine ColumnPredicate.regain_eq_self fun x hx => absurd (stocks_of_held ?_) (hempty x)
    rw [← hinner, hx]
  mixed := by
    rintro hnone ⟨u, hu, hname, hsome⟩
    obtain ⟨w, hw⟩ := Option.ne_none_iff_exists'.mp (hname ▸ (hloaded u hu hsome).2)
    -- a payload that is given is one of the group, and not that of the bundle around
    have hgiven : ∀ z, (q'.regain inner bundle).payload? = some z → c.Stocks q.key.name z →
        ∃ z ≠ [], (q'.regain inner bundle).payload? = some z ∧ bundle.get? q.key.name ≠ some z := by
      intro z hz hstock
      obtain ⟨v, hv, -, hpayload⟩ := hstocks _ z hstock
      obtain ⟨y, hne, hy⟩ := (hloaded v hv (by rw [hpayload]; simp)).1
      rw [hpayload] at hy
      cases hy
      exact ⟨z, hne, hz, fun hsame => hnever hnone z hsame hz⟩
    rcases q'.regain_cases inner bundle with ⟨hself, hsame⟩ | ⟨-, y, hy, -, hback⟩
    · cases hz : q'.payload? with
      | none =>
        rw [hkept.key] at hsame
        exact absurd (hsame hz w (by rw [hinner, hw])) (hfree _ w hw)
      | some z => exact hgiven z (by rw [hself, hz]) (hkept.known_of_none hnone hz)
    · rw [hkept.key, hinner] at hy
      exact hgiven y (by rw [hback]; rfl) (stocks_of_held hy)

/-- **Moving payloads out again** from what was left of a filter. -/
theorem compact_again (hf : f.Over ColumnPredicate.Loaded) (bundle : Bundle) :
    Alongside (Again (f.compact bundle) bundle) (f.compact bundle)
      ((f.compact bundle).compact bundle) := by
  rw [compact_eq_packed hf bundle]
  have hparted := compact_packed_parted (fun n x => bundle.get? n == some x) hf bundle
  have hloaded : ∀ u ∈ (f.packed fun n x => bundle.get? n == some x).leaves,
      u.payload? ≠ none → u.Loaded := fun u hu hsome =>
    (out_of_mem_packed hf hu).resolve_right fun hnone => hsome hnone.1
  have hfree : ∀ n x, (f.packed fun n x => bundle.get? n == some x).held n = some x →
      bundle.get? n ≠ some x := fun n x hheld hx =>
    (held_packed_ne hf (letsOut_of_get? hx)).2 hheld
  cases f with
  | column p =>
    refine .column ⟨fun hsome => ?_, fun hnone _ => ColumnPredicate.lighten_of_none hnone,
      fun hnone ⟨u, hu, _, hsome⟩ => ?_⟩
    · have hq := hloaded _ (List.mem_singleton.mpr rfl) hsome
      rw [ColumnPredicate.lighten_eq_leave hq, ColumnPredicate.leave_leave]
    · obtain rfl := List.mem_singleton.mp hu
      exact absurd hnone hsome
  | group op fs inner =>
    rw [packed] at hparted hloaded hfree ⊢
    have hbare := packedAll_bare
      (narrowed (fun n x => bundle.get? n == some x) (.group op fs inner)) fs
    have hdistinct : PredicateGroup.Distinct ⟨op, _, .empty⟩ :=
      PredicateGroup.distinct_of_bare rfl hbare
    obtain ⟨own, hown, hregained⟩ := exists_regained hdistinct bundle
    refine (hregained.and hparted).imp_of_mem fun q hq r _ ⟨⟨q', hr, hkept⟩, hqr⟩ => ?_
    rw [hr] at hqr ⊢
    refine again_of_kept hq hkept hown hfree
      (fun n x => (@PredicateGroup.stocks_of_bare ⟨op, _, .empty⟩ _ n x rfl hbare).mp)
      (fun u hu hsome => ⟨hloaded u hu hsome, ?_⟩)
      fun hnone x hx => hqr.apart hnone x (letsOut_of_get? hx)
    exact (held_ne_none hu (hloaded u hu hsome)).resolve_left fun h => h rfl

end Filter

namespace PredicateGroup

open CellFilter.Filter

variable {comparators : ComparatorRegistry} {group : PredicateGroup} {level : Nat}

theorem deduplicated_bare (h : group.Distinct) :
    OverAll (fun _ => True) group.deduplicated.filters :=
  overAll_iff.mpr fun f' hf' => by
    obtain ⟨f, -, hkept⟩ := forall₂_right_mem (deduplicated_kept h) f' hf'
    exact hkept.bare

theorem bundle_inside (h : group.Distinct) {b : Bundle}
    (hb : b ∈ bundlesAll group.deduplicated.filters) : b = .empty := by
  obtain ⟨f, hf, hb⟩ := mem_bundlesAll.mp hb
  exact (over_iff.mp (overAll_iff.mp (deduplicated_bare h) f hf)).2 b hb

theorem Distinct.deduplicated (h : group.Distinct) : group.deduplicated.Distinct := by
  intro b hb
  rcases List.mem_cons.mp hb with rfl | hb
  · exact nodup_deduplicated h
  · rw [bundle_inside h hb]
    exact List.nodup_nil

/-- The bundle has the name of every predicate, if all of them carry payloads. -/
theorem get?_deduplicated_ne_none (h : group.Distinct)
    (hloaded : OverAll ColumnPredicate.Loaded group.filters) {u : ColumnPredicate}
    (hu : u ∈ leavesAll group.deduplicated.filters) :
    group.deduplicated.bundle.get? u.key.name ≠ none := by
  obtain ⟨f', hf', hu⟩ := mem_leavesAll.mp hu
  obtain ⟨f, hf, hkept⟩ := forall₂_right_mem (deduplicated_kept h) f' hf'
  obtain ⟨p, hp, hpu⟩ := hkept.exists_left u hu
  have hmem : p ∈ group.toFilter.leaves := mem_leavesAll.mpr ⟨f, hf, hp⟩
  have hcarries : p.Loaded := (over_iff.mp (overAll_iff.mp hloaded f hf)).1 p hp
  rw [get?_deduplicated h, hpu.key]
  exact (held_ne_none hmem hcarries).resolve_left fun hnone => hnone rfl

/-- So the bundle stays as it is when payloads are moved out again. -/
theorem bundle_deduplicated_twice (h : group.Distinct)
    (hloaded : OverAll ColumnPredicate.Loaded group.filters) :
    group.deduplicated.deduplicated.bundle = group.deduplicated.bundle := by
  refine bundle_deduplicated h.deduplicated fun n x hheld hnone => ?_
  rcases stocks_of_held hheld with ⟨u, hu, rfl, -⟩ | ⟨b, hb, hget⟩
  · exact get?_deduplicated_ne_none h hloaded hu hnone
  · rcases List.mem_cons.mp hb with rfl | hb
    · rw [hget] at hnone
      cases hnone
    · rw [bundle_inside h hb] at hget
      cases hget

/-- A uniform filter stays as it is. -/
theorem eq_of_again {c c' : Filter} {bundle : Bundle} (hc : c.Over fun _ => True)
    (hagain : Alongside (Again c bundle) c c') (huniform : c.Uniform) : c = c' := by
  have hsame : Alongside Eq c c' := by
    refine hagain.imp_of_mem fun q hq r _ hqr => Eq.symm ?_
    cases hpayload : q.payload? with
    | some x => exact hqr.carrying (by rw [hpayload]; simp)
    | none =>
      refine hqr.alone hpayload fun u hu hname => ?_
      have hisSome := huniform u hu q hq hname
      rw [hpayload] at hisSome
      simpa using hisSome
  exact hsame.eq hc

theorem exists_mixed {c : Filter} (h : ¬ c.Uniform) : ∃ q ∈ c.leaves, q.payload? = none ∧
    ∃ u ∈ c.leaves, u.key.name = q.key.name ∧ u.payload? ≠ none := by
  simp only [Uniform, not_forall] at h
  obtain ⟨p, hp, q, hq, hname, hne⟩ := h
  cases hpp : p.payload? with
  | none =>
    refine ⟨p, hp, hpp, q, hq, hname.symm, fun hnone => hne ?_⟩
    rw [hpp, hnone]
  | some x =>
    refine ⟨q, hq, ?_, p, hp, hname, by rw [hpp]; simp⟩
    rw [hpp] at hne
    simpa using hne

section Loaded

variable (hbare : group.bundle = .empty) (hloaded : OverAll ColumnPredicate.Loaded group.filters)
include hbare hloaded

/-- Moving payloads out of what was left of a group, filter by filter. -/
theorem deduplicated_again :
    List.Forall₂ (fun c c' => Alongside (Again c group.deduplicated.bundle) c c')
      group.deduplicated.filters group.deduplicated.deduplicated.filters := by
  have h := distinct_of_bare hbare hloaded
  rw [filters_deduplicated h.deduplicated, bundle_deduplicated_twice h hloaded,
    filters_deduplicated h, List.forall₂_map_right_iff, List.forall₂_same, List.forall_mem_map]
  exact fun f hf => compact_again (overAll_iff.mp hloaded f hf) _

theorem deduplicated_eq_of_uniform (huniform : ∀ f ∈ group.deduplicated.filters, f.Uniform) :
    group.deduplicated.deduplicated = group.deduplicated := by
  have h := distinct_of_bare hbare hloaded
  have hfilters : group.deduplicated.filters = group.deduplicated.deduplicated.filters := by
    rw [← List.forall₂_eq_eq_eq]
    exact forall₂_imp_of_mem (deduplicated_again hbare hloaded) fun f hf f' _ hagain =>
      eq_of_again (overAll_iff.mp (deduplicated_bare h) f hf) hagain (huniform f hf)
  have hbundle := bundle_deduplicated_twice h hloaded
  show (⟨_, group.deduplicated.deduplicated.filters, group.deduplicated.deduplicated.bundle⟩ :
    PredicateGroup) = _
  rw [← hfilters, hbundle]

theorem uniform_of_deduplicated_eq (hsame : group.deduplicated.deduplicated = group.deduplicated) :
    ∀ f ∈ group.deduplicated.filters, f.Uniform := by
  have h := distinct_of_bare hbare hloaded
  have hagain := deduplicated_again hbare hloaded
  rw [hsame, List.forall₂_same] at hagain
  intro f hf
  by_contra hmixed
  obtain ⟨q, hq, hnone, hother⟩ := exists_mixed hmixed
  have hself := (overAll_iff.mp (deduplicated_bare h) f hf).alongside_self
  obtain ⟨r, -, hqr, rfl⟩ := ((hagain f hf).and hself).exists_right q hq
  obtain ⟨z, -, hz, -⟩ := hqr.mixed hnone hother
  rw [hnone] at hz
  cases hz

/-- If what was left of a group is decoded like the group itself, its inner groups are uniform. -/
theorem uniform_of_decode_eq {decoded : PredicateGroup}
    (hfirst : List.Forall₂
      (Alongside (ColumnPredicate.Handed comparators group.deduplicated.bundle))
      group.deduplicated.filters decoded.filters)
    (hsecond : List.Forall₂
      (Alongside (ColumnPredicate.Handed comparators group.deduplicated.deduplicated.bundle))
      group.deduplicated.deduplicated.filters decoded.filters) :
    ∀ f ∈ group.deduplicated.filters, f.Uniform := by
  have hthrough := forall₂_of_common (deduplicated_again hbare hloaded).flip hsecond
    (p := fun c x => Alongside (fun q u => ∃ r, Again c group.deduplicated.bundle q r ∧
      ColumnPredicate.Handed comparators group.deduplicated.deduplicated.bundle r u) c x)
    fun _ _ _ _ hagain hhanded => hagain.trans hhanded fun _ r _ hqr hru => ⟨r, hqr, hru⟩
  intro f hf
  by_contra hmixed
  obtain ⟨q, hq, hnone, hother⟩ := exists_mixed hmixed
  obtain ⟨g, -, hboth⟩ := forall₂_left_mem (forall₂_and hthrough hfirst) f hf
  obtain ⟨u, -, ⟨r, hqr, c?, -, hru⟩, c?', -, hqu⟩ := (hboth.1.and hboth.2).exists_right q hq
  obtain ⟨z, hne, hz, hbundle⟩ := hqr.mixed hnone hother
  -- such a predicate comes back with its own payload the first time and with another one the second
  have hown : u.payload? =
      (group.deduplicated.bundle.get? q.key.name).filter fun x => !x.isEmpty := by
    rw [hqu, hnone]
    rfl
  have hother : u.payload? = some z := by
    rw [hru, hz, ColumnPredicate.filter_nonempty_eq_some.mpr ⟨rfl, hne⟩]
    rfl
  rw [hother] at hown
  exact hbundle (ColumnPredicate.filter_nonempty_eq_some.mp hown.symm).1

end Loaded

/-- **Compacting twice.**  Let every predicate of a group carry a payload.  Moving the payloads of
what was left of it out again changes nothing, and an encoding of what was left is decoded like one
of the group itself, exactly if in no inner group of what was left some predicates of a name are with
a payload and others without. -/
theorem deduplicated_twice_iff (hbare : group.bundle = .empty)
    (hloaded : OverAll ColumnPredicate.Loaded group.filters) :
    (group.deduplicated.deduplicated = group.deduplicated ↔
      ∀ f ∈ group.deduplicated.filters, f.Uniform) ∧
    ∀ (comparators : ComparatorRegistry) (level : Nat),
      (∀ p ∈ leavesAll group.filters, p.Rebuildable comparators) →
      depthOfAll group.filters ≤ maxDepth →
      group.deduplicated.toFilter.Fits level →
      (group.encode level).length < UInt64.size →
      group.deduplicated.deduplicated.toFilter.Fits level →
      (group.deduplicated.encode level).length < UInt64.size →
        (decode comparators (group.deduplicated.encode level) =
            decode comparators (group.encode level) ↔
          ∀ f ∈ group.deduplicated.filters, f.Uniform) := by
  have h := distinct_of_bare hbare hloaded
  refine ⟨⟨uniform_of_deduplicated_eq hbare hloaded, deduplicated_eq_of_uniform hbare hloaded⟩, ?_⟩
  intro comparators level hrebuild hdepth hfits hlen hfits' hlen'
  constructor
  · intro hsame
    obtain ⟨decoded, hdecode⟩ := exists_decode h hdepth hrebuild hfits hlen
    exact uniform_of_decode_eq hbare hloaded (handed_of_decode h hfits hlen hdecode).2
      (handed_of_decode h.deduplicated hfits' hlen' (hsame.trans hdecode)).2
  · intro huniform
    rw [encode, deduplicated_eq_of_uniform hbare hloaded huniform]
    rfl

/-- A predicate with a payload, and beside it a group of one with some payload and one with
another. -/
def neighbours (payload? : Option Bytes) : PredicateGroup :=
  .of .or [.column ((plainTarget "demo.A" (some [1])).isEqualTo [8, 1]),
    .group .and [.column ((plainTarget "demo.A" payload?).isEqualTo [8, 2]),
      .column ((plainTarget "demo.A" (some [2])).isEqualTo [8, 3])] .empty]

theorem neighbours_loaded {x : Bytes} (hx : x ≠ []) :
    OverAll ColumnPredicate.Loaded (neighbours (some x)).filters :=
  ⟨⟨[1], by decide, rfl⟩, ⟨rfl, ⟨x, hx, rfl⟩, ⟨[2], by decide, rfl⟩, trivial⟩, trivial⟩

theorem deduplicated_twice_neighbours :
    (neighbours (some [2])).deduplicated.deduplicated = (neighbours (some [2])).deduplicated ∧
    decode .standard ((neighbours (some [2])).deduplicated.encode 0) =
      decode .standard ((neighbours (some [2])).encode 0) := by
  have hcomparator : ∀ p ∈ leavesAll (neighbours (some [2])).filters, p.comparator? = none := by
    decide
  have huniform : ∀ f ∈ (neighbours (some [2])).deduplicated.filters, f.Uniform := by decide +kernel
  obtain ⟨hsame, hdecode⟩ := deduplicated_twice_iff rfl (neighbours_loaded (x := [2]) (by decide))
  refine ⟨hsame.mpr huniform, (hdecode .standard 0 ?_ ?_ ?_ ?_ ?_ ?_).mpr huniform⟩
  · exact fun p hp => ColumnPredicate.rebuildable_of_none (hcomparator p hp)
  · decide
  all_goals decide +kernel

/-- The inner group has the payload of the outer predicate and another one.  The second time, its
first predicate, which relies on the bundle of the outermost group, is given the payload of its
neighbour.  The bytes are those of the group in which it never had a payload. -/
theorem deduplicated_twice_ne :
    OverAll ColumnPredicate.Loaded (neighbours (some [1])).filters ∧
    (neighbours (some [1])).deduplicated.deduplicated ≠ (neighbours (some [1])).deduplicated ∧
    decode .standard ((neighbours (some [1])).encode 0) = .ok (neighbours (some [1])) ∧
    decode .standard ((neighbours (some [1])).deduplicated.encode 0) = .ok (neighbours (some [2])) ∧
    neighbours (some [2]) ≠ neighbours (some [1]) ∧
    (neighbours none).encode 0 = (neighbours (some [1])).deduplicated.encode 0 := by
  have hpayloads : ∀ {g g' : PredicateGroup}, (leavesAll g.filters).map ColumnPredicate.payload? ≠
      (leavesAll g'.filters).map ColumnPredicate.payload? → g ≠ g' :=
    fun hne heq => hne (by rw [heq])
  refine ⟨neighbours_loaded (by decide), hpayloads (by decide +kernel), ?_, ?_,
    hpayloads (by decide +kernel), ?_⟩
  · rw [decode_encode .standard (by decide +kernel) (by decide +kernel)]
    rfl
  · rw [decode_encode .standard (by decide +kernel) (by decide +kernel)]
    rfl
  · rfl

end PredicateGroup

end CellFilter
