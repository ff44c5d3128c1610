import CellFilter.Message.Match
import CellFilter.Message.Path
import CellFilter.Proofs.Message.Reading

/-!
# Matching against isomorphic schemas

Messages of isomorphic schemas that hold the same match the same messages and have the same scalars
at the end of every path.  The full names of fields may differ, but as each of them is the name of
the field qualified by the one name of the schema, they coincide where the names of fields do.

* `Path.extract_alike`, `Path.compare_alike`: scalars at the end of a path.
* `Message.matchBy_eq`: matching whole messages.
-/

namespace CellFilter

open Outcome Schema

/-- A qualified name determines the name. -/
theorem qualify_injective (scope : String) : Function.Injective (qualify scope) := by
  intro a b h
  unfold qualify at h
  split_ifs at h with hempty
  · exact h
  · exact (String.append_right_inj _).mp h

theorem Schema.mem_fields_of_number {s : Schema} {f : Field} {n : Nat}
    (h : s.fieldByNumber? n = some f) : f ∈ s.fields :=
  List.mem_reverse.mp (List.mem_of_find?_eq_some h)

theorem SameMessage.schema_isomorphic {m n : Message} (h : SameMessage m n) : m.schema.Isomorphic n.schema := by
  cases h with
  | mk hst _ => exact hst

theorem SameMessage.get?_rel {m n : Message} (h : SameMessage m n) (number : Nat) :
    Option.Rel SameValue (m.get? number) (n.get? number) := by
  cases h with
  | mk _ hfs => exact hfs.lookup number

namespace Path

theorem enumType?_eq {s t : Schema} {f g : Field} (h : FieldsAgree Isomorphic s t f g) :
    s.enumType? f = t.enumType? g := by
  have hkind := h.kind
  unfold Schema.enumType?
  generalize f.kind = k, g.kind = l at hkind
  cases hkind with
  | plain hp => cases k <;> first | rfl | cases hp
  | message => rfl
  | enum hi hj => exact hi.trans hj.symm

/-- **The scalar at the end of a path.** -/
theorem extractChars_alike : ∀ {path : List Char} {m n : Message}, SameMessage m n →
    Alike Eq (extractChars path m) (extractChars path n) := by
  intro path
  induction hlen : path.length using Nat.strong_induction_on generalizing path with
  | _ len ih =>
    intro m n h
    rw [extractChars, extractChars]
    have hfield := h.schema_isomorphic.fieldByName?_rel (String.ofList (head path))
    generalize m.schema.fieldByName? (String.ofList (head path)) = f?,
      n.schema.fieldByName? (String.ofList (head path)) = g? at hfield
    cases hfield with
    | none => exact rfl
    | @some f g hfg =>
      dsimp only
      rw [enumType?_eq hfg, hfg.number, hfg.default?]
      have hvalue := h.get?_rel g.number
      generalize m.get? g.number = v?, n.get? g.number = w? at hvalue
      cases hvalue with
      | none => exact rfl
      | some hv =>
        cases hv with
        | atom a => exact rfl
        | list hl => trivial
        | message hname hmn =>
          dsimp only
          by_cases hblank : isBlank (rest path) = true
          · rw [if_pos hblank, if_pos hblank]
            trivial
          · rw [if_neg hblank, if_neg hblank]
            exact ih _ (hlen ▸ rest_length hblank) rfl hmn

theorem extract_alike {m n : Message} (h : SameMessage m n) (path : String) :
    Alike Eq (extract path m) (extract path n) := extractChars_alike h

theorem compare_alike {m n : Message} (h : SameMessage m n) (path : String)
    (operand? : Option Scalar) (op : CompareOp) (comparator? : Option Comparator) :
    Alike Eq (compare path operand? op m comparator?) (compare path operand? op n comparator?) := by
  unfold compare
  refine (extract_alike h path).bind ?_
  rintro value? _ rfl
  exact Alike.refl _

end Path

namespace Message

variable {s t : Schema}

/-- Fields of two schemas with values that hold the same, the full names being those of one name. -/
def SameNamed (s t : Schema) (a b : String × Value) : Prop :=
  ∃ name, a.1 = qualify s.fullName name ∧ b.1 = qualify t.fullName name ∧ SameValue a.2 b.2

theorem SameNamed.name_eq {a a' b b' : String × Value} (h : SameNamed s t a b)
    (h' : SameNamed s t a' b') : (a.1 == a'.1) = (b.1 == b'.1) := by
  obtain ⟨name, ha, hb, -⟩ := h
  obtain ⟨name', ha', hb', -⟩ := h'
  rw [ha, hb, ha', hb', Bool.eq_iff_iff, beq_iff_eq, beq_iff_eq,
    (qualify_injective s.fullName).eq_iff, (qualify_injective t.fullName).eq_iff]

theorem filter_named {k l : String × Value} {as bs : List (String × Value)} (hk : SameNamed s t k l)
    (h : List.Forall₂ (SameNamed s t) as bs) : List.Forall₂ (SameNamed s t)
      (as.filter fun a => a.1 != k.1) (bs.filter fun b => b.1 != l.1) := by
  induction h with
  | nil => exact .nil
  | @cons a b _ _ hab _ ih =>
    have hname : (a.1 != k.1) = (b.1 != l.1) := by rw [bne, bne, hab.name_eq hk]
    rw [List.filter_cons, List.filter_cons, hname]
    split_ifs
    · exact .cons hab ih
    · exact ih

theorem lookup_named {k l : String × Value} {as bs : List (String × Value)} (hk : SameNamed s t k l)
    (h : List.Forall₂ (SameNamed s t) as bs) :
    Option.Rel SameValue (as.lookup k.1) (bs.lookup l.1) := by
  induction h with
  | nil => exact .none
  | @cons a b _ _ hab _ ih =>
    rw [List.lookup_cons, List.lookup_cons, hk.name_eq hab]
    cases l.1 == b.1 with
    | true =>
      obtain ⟨-, -, -, hv⟩ := hab
      exact .some hv
    | false => exact ih

/-- Present fields by their full names. -/
def NamedAlike (s t : Schema) (x y : Field × Value) : Prop :=
  SameNamed s t (x.1.fullName, x.2) (y.1.fullName, y.2)

theorem byFullName_named {xs ys : List (Field × Value)} (h : List.Forall₂ (NamedAlike s t) xs ys) :
    List.Forall₂ (SameNamed s t) (byFullName xs) (byFullName ys) := by
  have hfold : ∀ {as bs : List (String × Value)}, List.Forall₂ (SameNamed s t) as bs →
      List.Forall₂ (SameNamed s t)
        (xs.foldl (fun known entry => known.filter (fun k => k.1 != entry.1.fullName) ++
          [(entry.1.fullName, entry.2)]) as)
        (ys.foldl (fun known entry => known.filter (fun k => k.1 != entry.1.fullName) ++
          [(entry.1.fullName, entry.2)]) bs) := by
    induction h with
    | nil => exact fun h => h
    | cons hxy _ ih =>
      intro as bs hab
      rw [List.foldl_cons, List.foldl_cons]
      exact ih (List.rel_append (filter_named hxy hab) (.cons hxy .nil))
  exact hfold .nil

/-- Going through the fields of operands that hold the same. -/
theorem matchFields_eq (op : MatchOp) {xs ys : List (Field × Value)}
    (h : List.Forall₂ (NamedAlike s t) xs ys) : ∀ {as bs : List (String × Value)}
      (someEqual someDifferent : Bool), List.Forall₂ (SameNamed s t) as bs →
        matchFields op ⟨as, someEqual, someDifferent⟩ xs =
          matchFields op ⟨bs, someEqual, someDifferent⟩ ys := by
  induction h with
  | nil =>
    intro as bs _ _ hab
    have hempty : as.isEmpty = bs.isEmpty := by cases hab <;> rfl
    unfold matchFields
    cases op <;> simp only [hempty]
  | @cons x y xs ys hxy _ ih =>
    intro as bs _ _ hab
    obtain ⟨f, v⟩ := x
    obtain ⟨g, w⟩ := y
    have hleft := filter_named hxy hab
    have hmeets : ∀ a b, Tally.meets ⟨as, a, b⟩ f v = Tally.meets ⟨bs, a, b⟩ g w := by
      intro a b
      have hlookup := lookup_named hxy hab
      unfold Tally.meets
      dsimp only at hlookup ⊢
      generalize as.lookup f.fullName = v?, bs.lookup g.fullName = w? at hlookup
      obtain ⟨-, -, -, hvw⟩ := hxy
      cases hlookup with
      | none => rfl
      | some hactual => exact SameValue.valueEq_eq hactual hvw
    rw [matchFields, matchFields]
    rw [hmeets]
    split_ifs
    · rfl
    · exact ih _ _ hleft
    · rfl
    · exact ih _ _ hleft

/-- The full names of fields are their names qualified by the name of the message. -/
theorem fullName_eq (hs : s.pool.Built) : ∀ f ∈ s.fields, f.fullName = qualify s.fullName f.name := by
  intro f hf
  obtain ⟨-, -, hfields⟩ := exists_declared hs
  obtain ⟨d, -, hmade⟩ := forall₂_right_mem (mapM_eq_ok_iff.mp hfields) f hf
  obtain ⟨kind, default?, -, -, -, rfl⟩ := SchemaPool.resolveField_eq_ok.mp hmade
  rfl

theorem presentFields_named {m n : Message} (h : SameMessage m n) (hs : m.schema.pool.Built)
    (ht : n.schema.pool.Built) :
    List.Forall₂ (NamedAlike m.schema n.schema) m.presentFields n.presentFields := by
  cases h with
  | @mk s t fs gs hst hfs =>
    unfold presentFields
    simp only [schema, Message.fields] at hs ht ⊢
    induction fs generalizing gs with
    | nil => cases hfs; exact .nil
    | cons entry fs ih =>
      cases hfs with
      | @cons number v w _ gs hv hrest =>
        have hfield := hst.fieldByNumber?_rel number
        rw [List.filterMap_cons, List.filterMap_cons]
        cases hf : s.fieldByNumber? number with
        | none =>
          cases hg : t.fieldByNumber? number with
          | none => exact ih hrest
          | some g =>
            rw [hf, hg] at hfield
            cases hfield
        | some f =>
          cases hg : t.fieldByNumber? number with
          | none =>
            rw [hf, hg] at hfield
            cases hfield
          | some g =>
            rw [hf, hg] at hfield
            cases hfield with
            | some hfg =>
              have hgname := fullName_eq ht g (mem_fields_of_number hg)
              rw [← hfg.name] at hgname
              exact .cons ⟨f.name, fullName_eq hs f (mem_fields_of_number hf), hgname, hv⟩
                (ih hrest)

/-- **Matching whole messages** of isomorphic schemas. -/
theorem matchBy_eq (op : MatchOp) {operand operand' value value' : Message}
    (ho : SameMessage operand operand') (hv : SameMessage value value')
    (hschema : operand.schema = value.schema) (hschema' : operand'.schema = value'.schema)
    (hs : value.schema.pool.Built) (ht : value'.schema.pool.Built) :
    matchBy op operand value = matchBy op operand' value' := by
  have hvalue := presentFields_named hv hs ht
  have hoperand := presentFields_named ho (hschema ▸ hs) (hschema' ▸ ht)
  rw [hschema, hschema'] at hoperand
  rw [matchBy, matchBy, matchFields_eq op hoperand false false (byFullName_named hvalue)]

end Message

end CellFilter
