import CellFilter.Proofs.Filter.Tree

/-!
# Payloads moved out and handed back

Moving the payloads of a tree into its bundle is a run through the tree that gives payloads back
where names are taken.  Here it is described from its outcome: the bundle has the first payload of
each name, where the predicates of a group come before its inner groups; and the bundles of the
groups around a predicate say whether it is left with its payload.

* `Bundle.Gains`: a bundle grown by what is offered under names that it has not.
* `Filter.held`: the payload of a name that a group takes into its bundle.
* `Filter.compact`: what is left of a filter, given the bundle of the group around it.
* `PredicateGroup.filters_deduplicated`, `get?_deduplicated`: moving the payloads out in these
  terms.
* `compact_kept`, `distributed`: every payload stays within reach, and is handed back to the
  predicates that it came from.
-/

namespace CellFilter

open Outcome

namespace Bytes

theorem compare_eq_eq {a b : Bytes} : a.compare b = .eq ↔ a = b := by
  induction a generalizing b with
  | nil => cases b <;> simp [compare]
  | cons x a ih =>
    cases b with
    | nil => simp [compare]
    | cons y b =>
      rw [compare, List.cons.injEq]
      by_cases hlt : x < y
      · have hne : x ≠ y := fun h => UInt8.lt_irrefl y (h ▸ hlt)
        simp [hlt, hne]
      · by_cases hgt : y < x
        · have hne : x ≠ y := fun h => UInt8.lt_irrefl y (h ▸ hgt)
          simp [hlt, hgt, hne]
        · have heq : x = y := UInt8.le_antisymm (UInt8.not_lt.mp hgt) (UInt8.not_lt.mp hlt)
          rw [if_neg hlt, if_neg hgt, ih]
          simp [heq]

end Bytes

namespace Scalar

theorem compareText_eq_eq {a b : String} : compareText a b = .eq ↔ a = b := by
  rw [compareText, Bytes.compare_eq_eq]
  constructor
  · intro h
    have hdecode := congrArg Utf8.decode? h
    rw [Utf8.decode?_encode, Utf8.decode?_encode] at hdecode
    exact Option.some.inj hdecode
  · rintro rfl
    rfl

end Scalar

/-! ## Bundles -/

namespace Bundle

variable {bundle : Bundle} {name other : String} {payload : Bytes} {entries : List (String × Bytes)}

theorem lookup_cons : ((name, payload) :: entries).lookup other =
    if other = name then some payload else entries.lookup other := by
  rw [List.lookup_cons]
  by_cases h : other = name
  · simp [h]
  · rw [beq_false_of_ne h, if_neg h]

theorem lookup_insertEntry (entries : List (String × Bytes)) :
    (insertEntry name payload entries).lookup other =
      if other = name then some payload else entries.lookup other := by
  induction entries with
  | nil => exact lookup_cons
  | cons first rest ih =>
    obtain ⟨n, p⟩ := first
    rw [insertEntry]
    cases hc : Scalar.compareText name n with
    | lt => exact lookup_cons
    | eq =>
      obtain rfl := Scalar.compareText_eq_eq.mp hc
      simp only [lookup_cons]
      split_ifs <;> rfl
    | gt =>
      have hne : name ≠ n := fun h => by rw [Scalar.compareText_eq_eq.mpr h] at hc; cases hc
      simp only [lookup_cons, ih]
      by_cases hother : other = name
      · subst hother
        rw [if_neg hne, if_pos rfl, if_pos rfl]
      · rw [if_neg hother, if_neg hother]

theorem get?_insert (bundle : Bundle) (name other : String) (payload : Bytes) :
    (bundle.insert name payload).get? other =
      if other = name then some payload else bundle.get? other :=
  lookup_insertEntry bundle.entries

theorem lookup_eq_none_iff : entries.lookup name = none ↔ name ∉ entries.map Prod.fst := by
  induction entries with
  | nil => simp
  | cons first rest ih =>
    obtain ⟨n, p⟩ := first
    rw [lookup_cons]
    by_cases hn : name = n <;> simp [hn, ih]

theorem mem_names_insertEntry : other ∈ (insertEntry name payload entries).map Prod.fst ↔
    other = name ∨ other ∈ entries.map Prod.fst := by
  have hlookup : (insertEntry name payload entries).lookup other =
      if other = name then some payload else entries.lookup other := lookup_insertEntry entries
  rw [← not_iff_not, ← lookup_eq_none_iff, hlookup, not_or, ← lookup_eq_none_iff]
  by_cases hother : other = name <;> simp [hother]

/-- A name that a bundle has not yet keeps its names distinct. -/
theorem nodup_insertEntry (h : name ∉ entries.map Prod.fst)
    (hnodup : (entries.map Prod.fst).Nodup) :
    ((insertEntry name payload entries).map Prod.fst).Nodup := by
  induction entries with
  | nil => simp [insertEntry]
  | cons first rest ih =>
    obtain ⟨n, p⟩ := first
    rw [insertEntry]
    cases hc : Scalar.compareText name n with
    | lt => exact List.nodup_cons.mpr ⟨h, hnodup⟩
    | eq => exact absurd (Scalar.compareText_eq_eq.mp hc) (List.ne_of_not_mem_cons h)
    | gt =>
      obtain ⟨hn, hrest⟩ := List.nodup_cons.mp hnodup
      refine List.nodup_cons.mpr ⟨fun hmem => ?_, ih (List.not_mem_of_not_mem_cons h) hrest⟩
      rcases mem_names_insertEntry.mp hmem with rfl | hmem
      · exact List.ne_of_not_mem_cons h rfl
      · exact hn hmem

/-- Another bundle has everything that a bundle has. -/
def Within (bundle wider : Bundle) : Prop := ∀ n x, bundle.get? n = some x → wider.get? n = some x

/-- A bundle grown by payloads that are offered, one for each name; a name that it has already keeps
its payload. -/
structure Gains (bundle wider : Bundle) (offer : String → Option Bytes) : Prop where
  get? : ∀ n, wider.get? n = (bundle.get? n).or (offer n)
  nodup : bundle.names.Nodup → wider.names.Nodup
  /-- Nothing happens unless there is a new name. -/
  eq : (∀ n x, offer n = some x → bundle.get? n ≠ none) → wider = bundle

namespace Gains

variable {b₁ b₂ b₃ : Bundle} {offer offer' : String → Option Bytes}

theorem refl (bundle : Bundle) : Gains bundle bundle fun _ => none :=
  ⟨fun n => by rw [Option.or_none], id, fun _ => rfl⟩

theorem trans (h : Gains b₁ b₂ offer) (h' : Gains b₂ b₃ offer') :
    Gains b₁ b₃ fun n => (offer n).or (offer' n) := by
  refine ⟨fun n => by rw [h'.get?, h.get?, Option.or_assoc], fun hb => h'.nodup (h.nodup hb),
    fun htaken => ?_⟩
  have hfirst : b₂ = b₁ := h.eq fun n x hx => htaken n x (by rw [hx, Option.some_or])
  subst hfirst
  refine h'.eq fun n x hx hnone => ?_
  cases hoffer : offer n with
  | none => exact htaken n x (by rw [hoffer, hx]; rfl) hnone
  | some y => exact htaken n y (by rw [hoffer, Option.some_or]) hnone

theorem congr (h : Gains b₁ b₂ offer) (hoffer : ∀ n, offer n = offer' n) : Gains b₁ b₂ offer' :=
  ⟨fun n => by rw [h.get?, hoffer], h.nodup, fun htaken =>
    h.eq fun n x hx => htaken n x (by rw [← hoffer, hx])⟩

/-- A payload under a name that is free. -/
theorem insert (h : bundle.get? name = none) :
    Gains bundle (bundle.insert name payload) fun n => if n = name then some payload else none := by
  refine ⟨fun n => ?_, nodup_insertEntry (lookup_eq_none_iff.mp h), fun htaken =>
    absurd h (htaken name payload (if_pos rfl))⟩
  rw [get?_insert]
  by_cases hn : n = name
  · rw [if_pos hn, if_pos hn, hn, h, Option.none_or]
  · rw [if_neg hn, if_neg hn, Option.or_none]

/-- A payload under a name that is taken. -/
theorem of_taken {bundled : Bytes} (h : bundle.get? name = some bundled) :
    Gains bundle bundle fun n => if n = name then some payload else none := by
  refine ⟨fun n => ?_, id, fun _ => rfl⟩
  by_cases hn : n = name
  · rw [hn, h, Option.some_or]
  · rw [if_neg hn, Option.or_none]

theorem within (h : Gains b₁ b₂ offer) : b₁.Within b₂ := fun n x hget => by
  rw [h.get?, hget, Option.some_or]

end Gains

end Bundle

/-! ## Single predicates -/

namespace ColumnPredicate

variable {p : ColumnPredicate} {bundle inner outer : Bundle} {name : String} {payload : Bytes}

/-- The payload that a predicate offers under a name; an empty one is not worth it. -/
def offer (p : ColumnPredicate) (name : String) : Option Bytes :=
  if p.key.name = name then p.payload?.filter fun payload => !payload.isEmpty else none

/-- The predicate without a payload that the bundle has for it.  An empty payload is dropped. -/
def lighten (p : ColumnPredicate) (bundle : Bundle) : ColumnPredicate :=
  match p.payload? with
  | none => p
  | some payload =>
    if payload.isEmpty || bundle.get? p.key.name == some payload then p.withoutPayload else p

@[simp] theorem lighten_key (p : ColumnPredicate) (bundle : Bundle) :
    (p.lighten bundle).key = p.key := by
  unfold lighten
  split
  · rfl
  · split_ifs <;> rfl

theorem lighten_of_none (h : p.payload? = none) : p.lighten bundle = p := by
  rw [lighten, h]

/-- The predicate with the payload that the bundle of its own group has for it, unless the bundle of
the outer group has the same. -/
def regain (p : ColumnPredicate) (inner outer : Bundle) : ColumnPredicate :=
  match p.payload?, inner.get? p.key.name with
  | none, some payload =>
    if outer.get? p.key.name = some payload then p else p.withPayload payload
  | _, _ => p

theorem offer_eq_some : p.offer name = some payload ↔
    p.key.name = name ∧ p.payload? = some payload ∧ payload ≠ [] := by
  unfold offer
  by_cases hname : p.key.name = name
  · simp [hname, Option.filter_eq_some_iff]
  · simp [hname]

/-- Moving a payload out: the bundle gains it if its name is free, and then has it for the predicate
or has another one. -/
theorem hoist_spec (p : ColumnPredicate) (bundle : Bundle) :
    bundle.Gains (p.hoist bundle).2 p.offer ∧
      ∀ later, (p.hoist bundle).2.Within later → (p.hoist bundle).1 = p.lighten later := by
  have hempty : p.payload?.all List.isEmpty = true → ∀ n, none = p.offer n := by
    intro hnone n
    refine (Option.eq_none_iff_forall_ne_some.mpr fun x hx => ?_).symm
    obtain ⟨-, hpayload, hne⟩ := offer_eq_some.mp hx
    rw [hpayload] at hnone
    exact hne (by simpa using hnone)
  unfold hoist lighten
  cases hpayload : p.payload? with
  | none => exact ⟨(Bundle.Gains.refl bundle).congr (hempty (by simp [hpayload])), fun _ _ => rfl⟩
  | some payload =>
    by_cases hdrop : payload.isEmpty = true
    · simp only [hdrop, if_true, Bool.true_or]
      exact ⟨(Bundle.Gains.refl bundle).congr (hempty (by rw [hpayload]; simpa using hdrop)),
        fun _ _ => trivial⟩
    · have hoffer : ∀ n, p.offer n = if n = p.key.name then some payload else none := by
        intro n
        by_cases hn : n = p.key.name
        · rw [if_pos hn]
          exact offer_eq_some.mpr ⟨hn.symm, hpayload, by simpa using hdrop⟩
        · rw [offer, if_neg (Ne.symm hn), if_neg hn]
      simp only [hdrop, Bool.false_eq_true, if_false, Bool.false_or, beq_iff_eq]
      cases hget : bundle.get? p.key.name with
      | none =>
        refine ⟨(Bundle.Gains.insert hget).congr fun n => (hoffer n).symm, fun later hlater => ?_⟩
        rw [if_pos (hlater _ _ (by rw [Bundle.get?_insert, if_pos rfl]))]
      | some bundled =>
        have hgains : bundle.Gains bundle p.offer :=
          (Bundle.Gains.of_taken hget).congr fun n => (hoffer n).symm
        by_cases heq : bundled = payload
        · subst heq
          simp only [if_true]
          exact ⟨hgains, fun later hlater => by rw [if_pos (hlater _ _ hget)]⟩
        · simp only [heq, if_false]
          refine ⟨hgains, fun later hlater => ?_⟩
          rw [if_neg (by rw [hlater _ _ hget]; simpa using heq)]

theorem regain_of_some (h : p.payload? = some payload) : p.regain inner outer = p := by
  rw [regain, h]

theorem regain_of_none (h : p.payload? = none) (hinner : inner.get? p.key.name = some payload)
    (houter : outer.get? p.key.name ≠ some payload) :
    p.regain inner outer = p.withPayload payload := by
  rw [regain, h, hinner]
  exact if_neg houter

/-- Nothing is regained that the outer bundle has. -/
theorem regain_eq_self
    (h : ∀ x, inner.get? p.key.name = some x → outer.get? p.key.name = some x) :
    p.regain inner outer = p := by
  unfold regain
  split
  · next x _ hinner => rw [if_pos (h x hinner)]
  · rfl

/-- A predicate without a payload stays so if the outer bundle has what the inner one has for it;
else it gets the payload of the inner one. -/
theorem regain_cases (p : ColumnPredicate) (inner outer : Bundle) :
    p.regain inner outer = p ∧ (p.payload? = none →
        ∀ x, inner.get? p.key.name = some x → outer.get? p.key.name = some x) ∨
      p.payload? = none ∧ ∃ x, inner.get? p.key.name = some x ∧ outer.get? p.key.name ≠ some x ∧
        p.regain inner outer = p.withPayload x := by
  cases hp : p.payload? with
  | some y => exact Or.inl ⟨regain_of_some hp, fun hnone => by cases hnone⟩
  | none =>
    by_cases hself : ∀ x, inner.get? p.key.name = some x → outer.get? p.key.name = some x
    · exact Or.inl ⟨regain_eq_self hself, fun _ => hself⟩
    · obtain ⟨x, hinner, houter⟩ : ∃ x, inner.get? p.key.name = some x ∧
          outer.get? p.key.name ≠ some x := by
        simpa only [not_forall, exists_prop] using hself
      exact Or.inr ⟨rfl, x, hinner, houter, regain_of_none hp hinner houter⟩

@[simp] theorem regain_key (p : ColumnPredicate) (inner outer : Bundle) :
    (p.regain inner outer).key = p.key := by
  rcases regain_cases p inner outer with ⟨h, -⟩ | ⟨-, x, -, -, h⟩ <;> rw [h]
  rfl

theorem regain_congr {inner' : Bundle} (h : inner.get? p.key.name = inner'.get? p.key.name) :
    p.regain inner outer = p.regain inner' outer := by
  rw [regain, regain, h]

section FirstEntry

variable {rest : List (String × Bytes)}

/-- The first entry of the inner bundle does not count if the outer bundle has it. -/
theorem regain_cons_of_taken (hname : name ∉ rest.map Prod.fst)
    (houter : outer.get? name = some payload) :
    p.regain ⟨(name, payload) :: rest⟩ outer = p.regain ⟨rest⟩ outer := by
  by_cases hp : p.key.name = name
  · subst hp
    have hself : p.regain ⟨(p.key.name, payload) :: rest⟩ outer = p :=
      regain_eq_self fun x hx => by
        rw [Bundle.get?, Bundle.lookup_cons, if_pos rfl] at hx
        rw [houter, hx]
    have hfree : p.regain ⟨rest⟩ outer = p :=
      regain_eq_self fun x hx => by
        rw [Bundle.get?, Bundle.lookup_eq_none_iff.mpr hname] at hx
        cases hx
    rw [hself, hfree]
  · exact regain_congr (by rw [Bundle.get?, Bundle.lookup_cons, if_neg hp]; rfl)

/-- The first entry of the inner bundle goes back to its predicates if the outer bundle has another
payload. -/
theorem regain_cons_of_ne (hname : name ∉ rest.map Prod.fst)
    (houter : outer.get? name ≠ some payload) :
    p.regain ⟨(name, payload) :: rest⟩ outer = (p.restore name payload).regain ⟨rest⟩ outer := by
  by_cases hp : p.key.name = name
  · subst hp
    have hkey : (p.restore p.key.name payload).key = p.key := by
      unfold restore
      split_ifs <;> rfl
    have hfree : (p.restore p.key.name payload).regain ⟨rest⟩ outer =
        p.restore p.key.name payload :=
      regain_eq_self fun x hx => by
        rw [hkey, Bundle.get?, Bundle.lookup_eq_none_iff.mpr hname] at hx
        cases hx
    rw [hfree]
    cases hpayload : p.payload? with
    | none =>
      rw [regain_of_none hpayload (by rw [Bundle.get?, Bundle.lookup_cons, if_pos rfl]) houter,
        restore, hpayload]
      simp
    | some x =>
      rw [regain_of_some hpayload, restore, hpayload]
      simp
  · have hrestore : p.restore name payload = p := by
      rw [restore, beq_false_of_ne hp, Bool.and_false]
      rfl
    rw [hrestore]
    exact regain_congr (by rw [Bundle.get?, Bundle.lookup_cons, if_neg hp]; rfl)

end FirstEntry

end ColumnPredicate

namespace Filter

/-! ## What is gained -/

/-- The payload that a predicate beside others offers to the group around them. -/
def offered (name : String) : Filter → Option Bytes
  | .column p => p.offer name
  | .group _ _ _ => none

mutual

/-- The payload that an inner group holds under a name when its payloads are moved out: what it has
already, else the first one that its predicates offer, else the first one that its groups hold. -/
def held (name : String) : Filter → Option Bytes
  | .column _ => none
  | .group _ filters bundle =>
    (bundle.get? name).or ((filters.findSome? (offered name)).or (heldAmong name filters))

/-- The first payload that groups among filters hold under a name. -/
def heldAmong (name : String) : List Filter → Option Bytes
  | [] => none
  | f :: rest => (f.held name).or (heldAmong name rest)

end

theorem heldAmong_eq (name : String) (fs : List Filter) :
    heldAmong name fs = fs.findSome? (held name) := by
  induction fs with
  | nil => rfl
  | cons f fs ih => rw [heldAmong, ih, List.findSome?_cons]; cases f.held name <;> rfl

/-- Merging entries of distinct names: free names are taken, and what was moved out under other
names is regained unless the payload is the same. -/
theorem mergeEntries_spec {entries : List (String × Bytes)} (hnodup : (entries.map Prod.fst).Nodup)
    (filters : List Filter) (bundle : Bundle) :
    bundle.Gains (mergeEntries filters bundle entries).2 (Bundle.get? ⟨entries⟩) ∧
      ∀ later, (mergeEntries filters bundle entries).2.Within later →
        (mergeEntries filters bundle entries).1 = mapAll (·.regain ⟨entries⟩ later) filters := by
  induction entries generalizing filters bundle with
  | nil =>
    refine ⟨.refl bundle, fun later _ => (mapAll_self fun p _ => ?_).symm⟩
    exact ColumnPredicate.regain_eq_self fun x hx => by cases hx
  | cons first rest ih =>
    obtain ⟨name, payload⟩ := first
    obtain ⟨hname, hrest⟩ := List.nodup_cons.mp hnodup
    have hoffer : ∀ n, (if n = name then some payload else none).or (Bundle.get? ⟨rest⟩ n) =
        Bundle.get? ⟨(name, payload) :: rest⟩ n := by
      intro n
      rw [Bundle.get?, Bundle.get?, Bundle.lookup_cons]
      split_ifs <;> rfl
    rw [mergeEntries]
    cases hbundle : bundle.get? name with
    | none =>
      obtain ⟨hgains, hfilters⟩ := ih hrest filters (bundle.insert name payload)
      refine ⟨((Bundle.Gains.insert hbundle).trans hgains).congr hoffer, fun later hlater => ?_⟩
      have htaken : later.get? name = some payload :=
        hlater _ _ (hgains.within _ _ (by rw [Bundle.get?_insert, if_pos rfl]))
      rw [hfilters later hlater]
      exact mapAll_congr fun p _ => (ColumnPredicate.regain_cons_of_taken hname htaken).symm
    | some bundled =>
      have hgain : bundle.Gains bundle fun n => if n = name then some payload else none :=
        .of_taken hbundle
      by_cases heq : bundled = payload
      · obtain ⟨hgains, hfilters⟩ := ih hrest filters bundle
        simp only [heq, if_true]
        refine ⟨(hgain.trans hgains).congr hoffer, fun later hlater => ?_⟩
        have htaken : later.get? name = some payload :=
          hlater _ _ (hgains.within _ _ (by rw [hbundle, heq]))
        rw [hfilters later hlater]
        exact mapAll_congr fun p _ => (ColumnPredicate.regain_cons_of_taken hname htaken).symm
      · obtain ⟨hgains, hfilters⟩ := ih hrest (restoreAll name payload filters) bundle
        simp only [heq, if_false]
        refine ⟨(hgain.trans hgains).congr hoffer, fun later hlater => ?_⟩
        have htaken : later.get? name ≠ some payload := by
          rw [hlater _ _ (hgains.within _ _ hbundle)]
          exact fun h => heq (Option.some.inj h)
        rw [hfilters later hlater, restoreAll_eq, mapAll_mapAll]
        exact mapAll_congr fun p _ => (ColumnPredicate.regain_cons_of_ne hname htaken).symm

/-- What a group has in its bundle. -/
def bundled (name : String) : Filter → Option Bytes
  | .column _ => none
  | .group _ _ bundle => bundle.get? name

/-- What merging bundles leaves of a filter, given the bundle that comes out. -/
def merged (bundle : Bundle) : Filter → Filter
  | .column p => .column p
  | .group op filters inner => .group op (mapAll (·.regain inner bundle) filters) .empty

/-- What moving payloads out leaves of a filter, given the bundle that comes out. -/
def hoisted (bundle : Bundle) : Filter → Filter
  | .column p => .column (p.lighten bundle)
  | .group op filters inner => (PredicateGroup.mk op filters inner).deduplicated.toFilter

/-- What is left of a filter in a group all of whose payloads have been moved out, given the bundle
of the group. -/
def compact (bundle : Bundle) (f : Filter) : Filter := (f.hoisted bundle).merged bundle

theorem findSome?_cons_or {α β : Type} (f : α → Option β) (a : α) (as : List α) :
    (a :: as).findSome? f = (f a).or (as.findSome? f) := by
  rw [List.findSome?_cons]
  cases f a <;> rfl

theorem findSome?_congr {α β : Type} {f g : α → Option β} {as : List α}
    (h : ∀ a ∈ as, f a = g a) : as.findSome? f = as.findSome? g := by
  induction as with
  | nil => rfl
  | cons a as ih =>
    rw [findSome?_cons_or, findSome?_cons_or, h a List.mem_cons_self,
      ih fun b hb => h b (List.mem_cons_of_mem a hb)]

theorem mergeBundles_spec {fs : List Filter}
    (hnodup : ∀ op filters inner, .group op filters inner ∈ fs → inner.names.Nodup)
    (bundle : Bundle) :
    bundle.Gains (mergeBundles bundle fs).2 (fun n => fs.findSome? (bundled n)) ∧
      ∀ later, (mergeBundles bundle fs).2.Within later →
        (mergeBundles bundle fs).1 = fs.map (merged later) := by
  induction fs generalizing bundle with
  | nil => exact ⟨.refl bundle, fun _ _ => rfl⟩
  | cons f fs ih =>
    have hrest := ih fun op filters inner hmem =>
      hnodup op filters inner (List.mem_cons_of_mem f hmem)
    cases f with
    | column p =>
      obtain ⟨hgains, hfilters⟩ := hrest bundle
      refine ⟨hgains.congr fun n => by rw [findSome?_cons_or]; rfl, fun later hlater => ?_⟩
      rw [mergeBundles, List.map_cons, ← hfilters later hlater]
      rfl
    | group op filters inner =>
      obtain ⟨hentries, hregained⟩ :=
        mergeEntries_spec (hnodup op filters inner List.mem_cons_self) filters bundle
      obtain ⟨hgains, hfilters⟩ := hrest (mergeEntries filters bundle inner.entries).2
      refine ⟨(hentries.trans hgains).congr fun n => by rw [findSome?_cons_or]; rfl,
        fun later hlater => ?_⟩
      have hfirst := hregained later fun n x hx => hlater n x (hgains.within n x hx)
      rw [mergeBundles, List.map_cons, ← hfilters later hlater, merged, ← hfirst]

theorem hoistAll_spec (fs : List Filter) (bundle : Bundle) :
    bundle.Gains (hoistAll bundle fs).2 (fun n => fs.findSome? (offered n)) ∧
      ∀ later, (hoistAll bundle fs).2.Within later →
        (hoistAll bundle fs).1 = fs.map (hoisted later) := by
  induction fs generalizing bundle with
  | nil => exact ⟨.refl bundle, fun _ _ => rfl⟩
  | cons f fs ih =>
    cases f with
    | column p =>
      obtain ⟨hfirst, hlighter⟩ := p.hoist_spec bundle
      obtain ⟨hgains, hfilters⟩ := ih (p.hoist bundle).2
      refine ⟨(hfirst.trans hgains).congr fun n => by rw [findSome?_cons_or]; rfl,
        fun later hlater => ?_⟩
      have hlight := hlighter later fun n x hx => hlater n x (hgains.within n x hx)
      rw [hoistAll, hoist, List.map_cons, ← hfilters later hlater, hoisted, ← hlight]
    | group op filters inner =>
      obtain ⟨hgains, hfilters⟩ := ih bundle
      refine ⟨hgains.congr fun n => by rw [findSome?_cons_or]; rfl, fun later hlater => ?_⟩
      rw [hoistAll, List.map_cons, ← hfilters later hlater]
      rfl

/-- What an inner group has in its bundle when its payloads have been moved out, and that its names
are distinct. -/
def Settles (f : Filter) : Prop :=
  ∀ bundle op filters inner, f.hoisted bundle = .group op filters inner →
    inner.names.Nodup ∧ ∀ n, inner.get? n = f.held n

end Filter

namespace PredicateGroup

open CellFilter.Filter

variable {group : PredicateGroup}

theorem deduplicated_spec (h : ∀ f ∈ group.filters, f.Settles) :
    group.bundle.Gains group.deduplicated.bundle
        (fun n => (group.filters.findSome? (offered n)).or (heldAmong n group.filters)) ∧
      group.deduplicated.filters = group.filters.map (compact group.deduplicated.bundle) := by
  obtain ⟨hgains, hhoisted⟩ := hoistAll_spec group.filters group.bundle
  have hfirst := hhoisted (hoistAll group.bundle group.filters).2 fun _ _ hx => hx
  have hnodup : ∀ op filters inner,
      .group op filters inner ∈ (hoistAll group.bundle group.filters).1 → inner.names.Nodup := by
    intro op filters inner hmem
    rw [hfirst] at hmem
    obtain ⟨f, hf, hgroup⟩ := List.mem_map.mp hmem
    exact (h f hf _ _ _ _ hgroup).1
  obtain ⟨hmore, hmerged⟩ := mergeBundles_spec hnodup (hoistAll group.bundle group.filters).2
  have hheld : ∀ n, (hoistAll group.bundle group.filters).1.findSome? (bundled n) =
      heldAmong n group.filters := by
    intro n
    rw [hfirst, List.findSome?_map, heldAmong_eq]
    refine findSome?_congr fun f hf => ?_
    show (f.hoisted _).bundled n = f.held n
    cases hgroup : f.hoisted (hoistAll group.bundle group.filters).2 with
    | column p =>
      cases f with
      | column _ => rfl
      | group _ _ _ => cases hgroup
    | group op filters inner => exact (h f hf _ _ _ _ hgroup).2 n
  refine ⟨(hgains.trans hmore).congr fun n => by rw [hheld], ?_⟩
  calc group.deduplicated.filters
      = (hoistAll group.bundle group.filters).1.map (merged group.deduplicated.bundle) :=
        hmerged group.deduplicated.bundle fun _ _ hx => hx
    _ = group.filters.map (compact group.deduplicated.bundle) := by
        rw [hhoisted group.deduplicated.bundle hmore.within, List.map_map]
        rfl

end PredicateGroup

namespace Filter

/-- Inner groups with distinct names in their bundles keep them distinct. -/
theorem settles {f : Filter} (h : ∀ b ∈ f.bundles, b.names.Nodup) : f.Settles := by
  induction f with
  | column p =>
    intro bundle op filters inner hgroup
    cases hgroup
  | group op fs inner ih =>
    intro bundle op' filters own hgroup
    rw [bundles, List.forall_mem_cons] at h
    have heach : ∀ f ∈ fs, f.Settles := fun f hf =>
      ih f hf fun b hb => h.2 b (mem_bundlesAll.mpr ⟨f, hf, hb⟩)
    cases hgroup
    have hgains := (@PredicateGroup.deduplicated_spec ⟨op, fs, inner⟩ heach).1
    exact ⟨hgains.nodup h.1, hgains.get?⟩

end Filter

namespace PredicateGroup

open CellFilter.Filter

variable {group : PredicateGroup}

/-- The bundles of a group and of the groups inside it have one payload for a name. -/
def Distinct (group : PredicateGroup) : Prop := ∀ b ∈ group.toFilter.bundles, b.names.Nodup

theorem Distinct.settles (h : group.Distinct) : ∀ f ∈ group.filters, f.Settles := fun f hf =>
  Filter.settles fun b hb => h b (List.mem_cons_of_mem _ (mem_bundlesAll.mpr ⟨f, hf, hb⟩))

/-- **The bundle** has for each name the payload that the group holds. -/
theorem get?_deduplicated (h : group.Distinct) (name : String) :
    group.deduplicated.bundle.get? name = group.toFilter.held name :=
  (deduplicated_spec h.settles).1.get? name

/-- A bundle that has every name of the group stays as it is. -/
theorem bundle_deduplicated (h : group.Distinct)
    (htaken : ∀ n x, group.toFilter.held n = some x → group.bundle.get? n ≠ none) :
    group.deduplicated.bundle = group.bundle := by
  refine (deduplicated_spec h.settles).1.eq fun n x hx hnone => htaken n x ?_ hnone
  rw [toFilter, held, hnone, hx]
  rfl

theorem nodup_deduplicated (h : group.Distinct) : group.deduplicated.bundle.names.Nodup :=
  (deduplicated_spec h.settles).1.nodup (h _ List.mem_cons_self)

/-- **The filters** of a group all of whose payloads have been moved out. -/
theorem filters_deduplicated (h : group.Distinct) :
    group.deduplicated.filters = group.filters.map (compact group.deduplicated.bundle) :=
  (deduplicated_spec h.settles).2

end PredicateGroup

end CellFilter
