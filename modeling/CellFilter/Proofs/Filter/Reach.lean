import CellFilter.Proofs.Filter.Bundling

/-!
# Payloads within reach

While payloads are moved out of a tree, a predicate that loses its payload finds it in the bundle
around it: either the bundles of all the groups in between have the same, or the payload has been
given back.  Predicates that had no payload may be given one, but only one that the tree has under
their name.

* `Filter.Stocks`: the payloads that a tree has under a name.
* `ColumnPredicate.Kept`: a predicate on the way, as compared with what it was.
* `PredicateGroup.deduplicated_kept`: moving payloads out keeps every predicate.
-/

namespace CellFilter

open Outcome

namespace ColumnPredicate

/-- There is no payload, or it is empty. -/
def Vacant (p : ColumnPredicate) : Prop := ∀ x ∈ p.payload?, x = []

/-- There is a payload, and it is not empty. -/
def Loaded (p : ColumnPredicate) : Prop := ∃ x ≠ [], p.payload? = some x

theorem not_vacant_iff {p : ColumnPredicate} : ¬ p.Vacant ↔ p.Loaded := by
  simp only [Vacant, Loaded, Option.mem_def, not_forall, exists_prop, and_comm, ne_eq]

/-- A predicate on the way.  A payload that it had is at hand or in the bundle around it; a payload
that it had not is known under its name. -/
structure Kept (known : String → Bytes → Prop) (outer : Bundle) (p q : ColumnPredicate) : Prop where
  rest : q = { p with payload? := q.payload? }
  own : ∀ x ≠ [], p.payload? = some x →
    q.payload? = some x ∨ q.payload? = none ∧ outer.get? p.key.name = some x
  other : ∀ x, q.payload? = some x → p.payload? = some x ∨ p.Vacant ∧ known p.key.name x

variable {known : String → Bytes → Prop} {inner outer : Bundle} {p q : ColumnPredicate}

theorem Kept.key (h : Kept known outer p q) : q.key = p.key := by
  rw [h.rest]

theorem Kept.eq_of_payload (h : Kept known outer p q) (hpayload : q.payload? = p.payload?) :
    q = p := by
  rw [h.rest, hpayload]

/-- Where there was no payload, one that is known may be at hand. -/
theorem Kept.known_of_none (h : Kept known outer p q) (hnone : p.payload? = none) {x : Bytes}
    (hx : q.payload? = some x) : known p.key.name x := by
  rcases h.other x hx with hown | ⟨-, hknown⟩
  · rw [hnone] at hown
    cases hown
  · exact hknown

theorem kept_lighten (known : String → Bytes → Prop) (outer : Bundle) (p : ColumnPredicate) :
    Kept known outer p (p.lighten outer) := by
  unfold lighten
  cases hp : p.payload? with
  | none =>
    refine ⟨rfl, fun x _ hx => ?_, fun x hx => Or.inl hx⟩
    rw [hp] at hx
    cases hx
  | some payload =>
    by_cases hlight : (payload.isEmpty || outer.get? p.key.name == some payload) = true
    · simp only [hlight, if_true]
      refine ⟨rfl, fun x hne hx => Or.inr ⟨rfl, ?_⟩, fun x hx => by cases hx⟩
      obtain rfl : payload = x := Option.some.inj (hp.symm.trans hx)
      simpa [hne] using hlight
    · simp only [hlight]
      exact ⟨rfl, fun x _ hx => Or.inl hx, fun x hx => Or.inl hx⟩

/-- Regaining payloads that the outer bundle has not. -/
theorem Kept.regain (h : Kept known inner p q)
    (hknown : ∀ n x, inner.get? n = some x → known n x) :
    Kept known outer p (q.regain inner outer) := by
  rcases regain_cases q inner outer with ⟨hself, hsame⟩ | ⟨hnone, y, hinner, -, hback⟩
  · rw [hself]
    refine ⟨h.rest, fun x hne hx => ?_, h.other⟩
    rcases h.own x hne hx with hhere | ⟨hnone, hinner⟩
    · exact Or.inl hhere
    · rw [h.key] at hsame
      exact Or.inr ⟨hnone, hsame hnone x hinner⟩
  · rw [hback]
    rw [h.key] at hinner
    -- the payload of such a predicate, if it had one, is in the inner bundle
    have hown : ∀ x ≠ [], p.payload? = some x → y = x := by
      intro x hne hx
      rcases h.own x hne hx with hhere | ⟨-, hbundle⟩
      · rw [hnone] at hhere
        cases hhere
      · exact Option.some.inj (hinner.symm.trans hbundle)
    refine ⟨by rw [h.rest]; rfl, fun x hne hx => Or.inl (congrArg some (hown x hne hx)),
      fun x hx => ?_⟩
    obtain rfl : y = x := Option.some.inj hx
    by_cases hvacant : p.Vacant
    · exact Or.inr ⟨hvacant, hknown _ _ hinner⟩
    · obtain ⟨z, hzne, hz⟩ := not_vacant_iff.mp hvacant
      rw [hown z hzne hz]
      exact Or.inl hz

end ColumnPredicate

namespace Filter

/-- A predicate of the tree carries the payload under the name, or a group has it in its bundle. -/
def Stocks (f : Filter) (name : String) (payload : Bytes) : Prop :=
  (∃ p ∈ f.leaves, p.key.name = name ∧ p.payload? = some payload) ∨
    ∃ b ∈ f.bundles, b.get? name = some payload

variable {f : Filter} {name : String} {payload : Bytes} {known : String → Bytes → Prop}

theorem Stocks.group {fs : List Filter} (hf : f ∈ fs) (h : f.Stocks name payload) (op : Operator)
    (bundle : Bundle) : (Filter.group op fs bundle).Stocks name payload := by
  rcases h with ⟨p, hp, hcarries⟩ | ⟨b, hb, hget⟩
  · exact Or.inl ⟨p, mem_leavesAll.mpr ⟨f, hf, hp⟩, hcarries⟩
  · exact Or.inr ⟨b, List.mem_cons_of_mem _ (mem_bundlesAll.mpr ⟨f, hf, hb⟩), hget⟩

/-- What a group holds was in it. -/
theorem stocks_of_held (h : f.held name = some payload) : f.Stocks name payload := by
  induction f generalizing payload with
  | column p => cases h
  | group op fs bundle ih =>
    rw [held, Option.or_eq_some_iff, Option.or_eq_some_iff] at h
    rcases h with hbundle | ⟨-, hcolumns | ⟨-, hgroups⟩⟩
    · exact Or.inr ⟨bundle, List.mem_cons_self, hbundle⟩
    · obtain ⟨f, hf, hoffered⟩ := List.exists_of_findSome?_eq_some hcolumns
      cases f with
      | column p =>
        obtain ⟨hname, hpayload, -⟩ := ColumnPredicate.offer_eq_some.mp hoffered
        exact Or.inl ⟨p, mem_leavesAll.mpr ⟨_, hf, List.mem_singleton.mpr rfl⟩, hname, hpayload⟩
      | group _ _ _ => cases hoffered
    · rw [heldAmong_eq] at hgroups
      obtain ⟨f, hf, hheld⟩ := List.exists_of_findSome?_eq_some hgroups
      exact (ih f hf hheld).group hf op bundle

/-- What is left of a tree has every payload at hand or in the bundle around it. -/
theorem compact_kept (hdistinct : ∀ b ∈ f.bundles, b.names.Nodup)
    (hknown : ∀ n x, f.Stocks n x → known n x) (outer : Bundle) :
    Alongside (ColumnPredicate.Kept known outer) f (f.compact outer) := by
  induction f generalizing outer with
  | column p => exact .column (ColumnPredicate.kept_lighten known outer p)
  | group op fs bundle ih =>
    have hgroup : PredicateGroup.Distinct ⟨op, fs, bundle⟩ := hdistinct
    have hinner : ∀ n x, (PredicateGroup.deduplicated ⟨op, fs, bundle⟩).bundle.get? n = some x →
        known n x := by
      intro n x hx
      rw [PredicateGroup.get?_deduplicated hgroup] at hx
      exact hknown n x (stocks_of_held hx)
    have heach : List.Forall₂ (Alongside (ColumnPredicate.Kept known
        (PredicateGroup.deduplicated ⟨op, fs, bundle⟩).bundle)) fs
        (PredicateGroup.deduplicated ⟨op, fs, bundle⟩).filters := by
      rw [PredicateGroup.filters_deduplicated hgroup, List.forall₂_map_right_iff, List.forall₂_same]
      intro f hf
      have hinside : ∀ b ∈ f.bundles, b.names.Nodup := fun b hb =>
        hdistinct b (List.mem_cons_of_mem _ (mem_bundlesAll.mpr ⟨f, hf, hb⟩))
      exact ih f hf hinside (fun n x hx => hknown n x (hx.group hf op bundle)) _
    exact .group (Alongside.mapAll heach fun p q hkept => hkept.regain hinner)

end Filter

namespace PredicateGroup

open CellFilter.Filter

variable {group : PredicateGroup}

theorem distinct_of_bare {P : ColumnPredicate → Prop} (hbare : group.bundle = .empty)
    (h : OverAll P group.filters) : group.Distinct := by
  intro b hb
  have hover : group.toFilter.Over P := ⟨hbare, h⟩
  rw [(over_iff.mp hover).2 b hb]
  exact List.nodup_nil

theorem stocks_of_bare {P : ColumnPredicate → Prop} {name : String} {payload : Bytes}
    (hbare : group.bundle = .empty) (h : OverAll P group.filters) :
    group.toFilter.Stocks name payload ↔
      ∃ p ∈ leavesAll group.filters, p.key.name = name ∧ p.payload? = some payload := by
  have hover : group.toFilter.Over P := ⟨hbare, h⟩
  refine ⟨fun hstocks => hstocks.resolve_right ?_, Or.inl⟩
  rintro ⟨b, hb, hget⟩
  rw [(over_iff.mp hover).2 b hb] at hget
  cases hget

/-- **Payloads moved out** of a group stay within reach of their predicates. -/
theorem deduplicated_kept (h : group.Distinct) : List.Forall₂
    (Alongside (ColumnPredicate.Kept group.toFilter.Stocks group.deduplicated.bundle))
    group.filters group.deduplicated.filters := by
  rw [filters_deduplicated h, List.forall₂_map_right_iff, List.forall₂_same]
  intro f hf
  exact compact_kept (fun b hb => h b (List.mem_cons_of_mem _ (mem_bundlesAll.mpr ⟨f, hf, hb⟩)))
    (fun n x hx => hx.group hf _ _) _

end PredicateGroup

/-- What is left of an inner group: its predicates are kept, then regained from its own bundle. -/
theorem Filter.exists_regained {op : Operator} {fs : List Filter} {bundle : Bundle}
    (h : PredicateGroup.Distinct ⟨op, fs, bundle⟩) (outer : Bundle) : ∃ inner : Bundle,
      (∀ n, inner.get? n = (Filter.group op fs bundle).held n) ∧
      Alongside (fun p r => ∃ q, r = q.regain inner outer ∧
        ColumnPredicate.Kept (Filter.group op fs bundle).Stocks inner p q)
        (.group op fs bundle) ((Filter.group op fs bundle).compact outer) :=
  ⟨_, PredicateGroup.get?_deduplicated h,
    .group (Alongside.mapAll (PredicateGroup.deduplicated_kept h) fun _ q hkept => ⟨q, rfl, hkept⟩)⟩

end CellFilter
