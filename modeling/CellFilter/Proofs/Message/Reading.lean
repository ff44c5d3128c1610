import CellFilter.Proofs.Message.Agreement

/-!
# Reading against isomorphic schemas

The same bytes, read against isomorphic schemas, are faulty for both or yield messages that hold the
same.

* `consumeAll_alike`: reading step by step.
* `readAtom_alike`, `readValue_alike`, `step_alike`: what one step does.
* `Message.decode_alike`: reading a whole message.
-/

namespace CellFilter

open Outcome Schema

/-- Steps that fail together or leave related states and the same bytes, run until nothing is left. -/
theorem consumeAll_alike {σ τ ε ε' : Type} {r : σ → τ → Prop}
    {f : σ → Bytes → Except ε (σ × Bytes)} {g : τ → Bytes → Except ε' (τ × Bytes)}
    (hstep : ∀ a b bytes, r a b →
      Alike (fun x y => r x.1 y.1 ∧ x.2 = y.2) (f a bytes) (g b bytes)) {a : σ} {b : τ}
    (h : r a b) (bytes : Bytes) : Alike r (consumeAll f a bytes) (consumeAll g b bytes) := by
  have hfuel : ∀ (fuel : Nat) (a : σ) (b : τ) (bytes : Bytes), r a b →
      Alike r (consume f fuel a bytes) (consume g fuel b bytes) := by
    intro fuel
    induction fuel with
    | zero =>
      intro a b bytes hab
      cases bytes <;> exact hab
    | succ fuel ih =>
      intro a b bytes hab
      cases bytes with
      | nil => exact hab
      | cons x bytes =>
        rw [consume, consume]
        refine (hstep a b _ hab).bind ?_
        rintro ⟨next, left⟩ ⟨next', _⟩ ⟨hstate, rfl⟩
        exact ih next next' left hstate
  exact hfuel _ a b bytes h

theorem find?_rel {α β : Type} {r : α → β → Prop} {p : α → Bool} {q : β → Bool} {as : List α}
    {bs : List β} (h : List.Forall₂ r as bs) (hpq : ∀ a b, r a b → p a = q b) :
    Option.Rel r (as.find? p) (bs.find? q) := by
  induction h with
  | nil => exact .none
  | @cons a b _ _ hab _ ih =>
    rw [List.find?_cons, List.find?_cons, hpq a b hab]
    cases q b with
    | true => exact .some hab
    | false => exact ih

variable {s t : Schema} {f g : Field}

namespace Schema

theorem KindsAgree.isPackable_eq {r : Schema → Schema → Prop} {k l : FieldKind}
    (h : KindsAgree r s t k l) : k.isPackable = l.isPackable := by
  cases h <;> rfl

theorem KindsAgree.wireType_eq {r : Schema → Schema → Prop} {k l : FieldKind}
    (h : KindsAgree r s t k l) : k.wireType = l.wireType := by
  cases h <;> rfl

theorem Isomorphic.fieldByNumber?_rel (h : s.Isomorphic t) (number : Nat) :
    Option.Rel (FieldsAgree Isomorphic s t) (s.fieldByNumber? number) (t.fieldByNumber? number) :=
  find?_rel (List.rel_reverse h.fields) fun f g hfg => by rw [hfg.number]

theorem Isomorphic.fieldByName?_rel (h : s.Isomorphic t) (name : String) :
    Option.Rel (FieldsAgree Isomorphic s t) (s.fieldByName? name) (t.fieldByName? name) :=
  find?_rel h.fields fun f g hfg => by rw [hfg.name]

/-- The schemas that agreeing fields lead to. -/
theorem FieldsAgree.messageSchema?_rel (h : FieldsAgree Isomorphic s t f g) :
    Option.Rel (fun a b => a.fullName = b.fullName ∧ Isomorphic a b) (s.messageSchema? f)
      (t.messageSchema? g) := by
  have hkind := h.kind
  unfold messageSchema?
  generalize f.kind = k, g.kind = l at hkind
  cases hkind with
  | plain hp => cases k <;> first | exact .none | cases hp
  | message hi hj hname hab =>
    simp only [hi, hj]
    exact .some ⟨hname, hab⟩
  | enum => exact .none

end Schema

namespace Message

theorem readDelimited_alike (s t : Schema) (bytes : Bytes) :
    Alike Eq (readDelimited s bytes) (readDelimited t bytes) := by
  unfold readDelimited
  refine (Alike.refl (readVarint bytes)).bind ?_
  rintro ⟨n, rest⟩ _ rfl
  dsimp only
  split_ifs
  · exact rfl
  · trivial

theorem readFixed_alike (s t : Schema) (width : Nat) (bytes : Bytes) :
    Alike Eq (readFixed s width bytes) (readFixed t width bytes) := by
  unfold readFixed
  split_ifs
  · exact rfl
  · trivial

theorem ofKind_alike (wireType : WireType) (a? : Option Atom) :
    Alike Eq (ofKind s f wireType a?) (ofKind t g wireType a?) := by
  cases a? with
  | none => trivial
  | some a => exact rfl

/-- A number is read, and made a value of the kind of the field. -/
theorem ofKind_of_read {x y : Except FilterError (Nat × Bytes)} (hxy : Alike Eq x y)
    (wireType : WireType) (atom : Nat → Option Atom) :
    Alike Eq (x >>= fun r => ofKind s f wireType (atom r.1) >>= fun a => Pure.pure (a, r.2))
      (y >>= fun r => ofKind t g wireType (atom r.1) >>= fun a => Pure.pure (a, r.2)) := by
  refine hxy.bind ?_
  rintro ⟨n, rest⟩ _ rfl
  refine (ofKind_alike wireType (atom n)).bind ?_
  rintro a _ rfl
  exact rfl

/-- Values that are not messages. -/
theorem readAtom_alike {r : Schema → Schema → Prop} (h : KindsAgree r s t f.kind g.kind)
    (wireType : WireType) (bytes : Bytes) :
    Alike Eq (readAtom s f wireType bytes) (readAtom t g wireType bytes) := by
  have hvarint : atomOfVarint f.kind = atomOfVarint g.kind := by
    generalize f.kind = k, g.kind = l at h
    cases h <;> rfl
  have hword32 : atomOfWord32 f.kind = atomOfWord32 g.kind := by
    generalize f.kind = k, g.kind = l at h
    cases h <;> rfl
  have hword64 : atomOfWord64 f.kind = atomOfWord64 g.kind := by
    generalize f.kind = k, g.kind = l at h
    cases h <;> rfl
  cases wireType with
  | varint =>
    unfold readAtom
    rw [hvarint]
    exact ofKind_of_read (.refl _) .varint (atomOfVarint g.kind)
  | thirtyTwoBit =>
    unfold readAtom
    rw [hword32]
    exact ofKind_of_read (readFixed_alike s t 4 bytes) .thirtyTwoBit
      fun n => atomOfWord32 g.kind n.toUInt32
  | sixtyFourBit =>
    unfold readAtom
    rw [hword64]
    exact ofKind_of_read (readFixed_alike s t 8 bytes) .sixtyFourBit
      fun n => atomOfWord64 g.kind n.toUInt64
  | lengthDelimited =>
    refine (readDelimited_alike s t bytes).bind ?_
    rintro ⟨body, rest⟩ _ rfl
    dsimp only
    generalize f.kind = k, g.kind = l at h
    cases h with
    | message => trivial
    | enum => trivial
    | plain hp =>
      cases k <;> try trivial
      · cases Utf8.decode? body <;> trivial
  | startGroup => trivial
  | endGroup => trivial

theorem checkWireType_alike {r : Schema → Schema → Prop} (h : KindsAgree r s t f.kind g.kind)
    (actual : WireType) : Alike Eq (checkWireType s f actual) (checkWireType t g actual) := by
  unfold checkWireType
  rw [h.wireType_eq]
  split_ifs
  · exact rfl
  · trivial

theorem skip_alike (s t : Schema) (wireType : WireType) (bytes : Bytes) :
    Alike Eq (skip s wireType bytes) (skip t wireType bytes) := by
  have hsecond : ∀ {α : Type} {x y : Except FilterError (α × Bytes)}, Alike Eq x y →
      Alike Eq (x >>= fun r => Pure.pure r.2) (y >>= fun r => Pure.pure r.2) := by
    intro α x y h
    refine h.bind ?_
    rintro r _ rfl
    exact rfl
  cases wireType with
  | varint => exact hsecond (Alike.refl (readVarint bytes))
  | thirtyTwoBit => exact hsecond (readFixed_alike s t 4 bytes)
  | sixtyFourBit => exact hsecond (readFixed_alike s t 8 bytes)
  | lengthDelimited => exact hsecond (readDelimited_alike s t bytes)
  | startGroup => trivial
  | endGroup => trivial

/-- Ways of reading nested messages that do the same for isomorphic schemas. -/
def NestedAlike (nested nested' : ReadNested) : Prop :=
  ∀ (a b : Schema) (bytes : Bytes), a.Isomorphic b →
    Alike (fun m n => SameMessage m n ∧ m.schema = a ∧ n.schema = b) (nested a bytes)
      (nested' b bytes)

/-- Results of a step: they hold the same, and the same bytes are left. -/
def SameLeft {α β : Type} (r : α → β → Prop) (x : α × Bytes) (y : β × Bytes) : Prop :=
  r x.1 y.1 ∧ x.2 = y.2

theorem readValue_alike {nested nested' : ReadNested} (hn : NestedAlike nested nested')
    (h : FieldsAgree Isomorphic s t f g) (wireType : WireType) (bytes : Bytes) :
    Alike (SameLeft SameValue) (readValue nested s f wireType bytes)
      (readValue nested' t g wireType bytes) := by
  have hplain : Alike (SameLeft SameValue)
      (readAtom s f wireType bytes >>= fun r => Pure.pure (Value.atom r.1, r.2))
      (readAtom t g wireType bytes >>= fun r => Pure.pure (Value.atom r.1, r.2)) := by
    refine (readAtom_alike h.kind wireType bytes).bind ?_
    rintro ⟨a, rest⟩ _ rfl
    exact ⟨.atom a, rfl⟩
  unfold readValue
  refine (checkWireType_alike h.kind wireType).bind ?_
  rintro _ _ rfl
  have hkind := h.kind
  generalize f.kind = k, g.kind = l at hkind
  cases hkind with
  | plain hp => cases k <;> first | exact hplain | cases hp
  | message =>
    refine (readDelimited_alike s t bytes).bind ?_
    rintro ⟨body, rest⟩ _ rfl
    have hschema := h.messageSchema?_rel
    generalize s.messageSchema? f = a?, t.messageSchema? g = b? at hschema
    cases hschema with
    | none => trivial
    | some hab =>
      obtain ⟨hname, hiso⟩ := hab
      refine (hn _ _ body hiso).bind ?_
      rintro m n ⟨hmn, rfl, rfl⟩
      exact ⟨.message hname hmn, rfl⟩
  | enum => exact hplain

/-- Drafts that hold the same. -/
structure SameDraft (d e : Draft) : Prop where
  singles : SameFields d.singles e.singles
  lists : SameFields d.lists e.lists

theorem SameDraft.addSingle {d e : Draft} (h : SameDraft d e) (number : Nat) {v w : Value}
    (hv : SameValue v w) : SameDraft (d.addSingle number v) (e.addSingle number w) :=
  ⟨h.singles.putField number (SameValue.merge (h.singles.lookup number) hv), h.lists⟩

theorem SameDraft.addAll {d e : Draft} (h : SameDraft d e) (number : Nat) {vs ws : List Value}
    (hv : SameList vs ws) : SameDraft (d.addAll number vs) (e.addAll number ws) :=
  ⟨h.singles, h.lists.putField number (SameValue.merge (h.lists.lookup number) (.list hv))⟩

theorem SameDraft.finish {d e : Draft} (h : SameDraft d e) (hst : s.Isomorphic t) :
    SameMessage (d.finish s) (e.finish t) := by
  have hfold : ∀ {more more' fs gs : List (Nat × Value)}, SameFields more more' → SameFields fs gs →
      SameFields (more.foldl (fun fields entry => putField fields entry.1 entry.2) fs)
        (more'.foldl (fun fields entry => putField fields entry.1 entry.2) gs) := by
    intro more
    induction more with
    | nil =>
      intro more' fs gs hmore hfs
      cases hmore
      exact hfs
    | cons entry more ih =>
      intro more' fs gs hmore hfs
      cases hmore with
      | cons hv hrest =>
        rw [List.foldl_cons, List.foldl_cons]
        exact ih hrest (hfs.putField _ hv)
  exact .mk hst (hfold h.lists h.singles)

theorem step_alike {nested nested' : ReadNested} (hn : NestedAlike nested nested')
    (hst : s.Isomorphic t) {d e : Draft} (h : SameDraft d e) (bytes : Bytes) :
    Alike (SameLeft SameDraft) (step nested s d bytes) (step nested' t e bytes) := by
  unfold step
  refine ((Alike.refl (FieldKey.decode bytes)).mapError _ _).bind ?_
  rintro ⟨key, rest⟩ _ rfl
  dsimp only
  have hfield := hst.fieldByNumber?_rel key.number
  generalize s.fieldByNumber? key.number = f?, t.fieldByNumber? key.number = g? at hfield
  cases hfield with
  | none =>
    refine (skip_alike s t key.wireType rest).bind ?_
    rintro left _ rfl
    exact ⟨h, rfl⟩
  | @some f g hfg =>
    dsimp only
    rw [hfg.repeated, hfg.kind.isPackable_eq, hfg.number]
    split_ifs with hrun hrepeated
    · refine (readDelimited_alike s t rest).bind ?_
      rintro ⟨run, left⟩ _ rfl
      have hvalues : Alike SameList (consumeAll (runStep s f) [] run) (consumeAll (runStep t g) [] run) := by
        refine consumeAll_alike ?_ .nil run
        intro vs ws bytes hvs
        unfold runStep
        rw [hfg.kind.wireType_eq]
        refine (readAtom_alike hfg.kind _ bytes).bind ?_
        rintro ⟨a, left⟩ _ rfl
        exact ⟨hvs.append (.cons (.atom a) .nil), rfl⟩
      refine hvalues.bind fun vs ws hvs => ?_
      exact ⟨h.addAll _ hvs, rfl⟩
    · refine (readValue_alike hn hfg key.wireType rest).bind ?_
      rintro ⟨v, left⟩ ⟨w, _⟩ ⟨hv, rfl⟩
      exact ⟨h.addAll _ (.cons hv .nil), rfl⟩
    · refine (readValue_alike hn hfg key.wireType rest).bind ?_
      rintro ⟨v, left⟩ ⟨w, _⟩ ⟨hv, rfl⟩
      exact ⟨h.addSingle _ hv, rfl⟩

theorem decodeWithin_alike : ∀ levels : Nat, NestedAlike (decodeWithin levels) (decodeWithin levels)
  | 0 => fun _ _ _ _ => trivial
  | levels + 1 => by
    intro s t bytes hst
    have hdraft : Alike SameDraft (consumeAll (step (decodeWithin levels) s) .empty bytes)
        (consumeAll (step (decodeWithin levels) t) .empty bytes) :=
      consumeAll_alike (fun _ _ bytes h => step_alike (decodeWithin_alike levels) hst h bytes)
        ⟨.nil, .nil⟩ bytes
    exact hdraft.bind fun d e hde => ⟨hde.finish hst, rfl, rfl⟩

/-- **Reading a message** against isomorphic schemas. -/
theorem decode_alike (hst : s.Isomorphic t) (bytes : Bytes) :
    Alike (fun m n => SameMessage m n ∧ m.schema = s ∧ n.schema = t) (decode s bytes)
      (decode t bytes) :=
  decodeWithin_alike (maxDepth + 1) s t bytes hst

end Message

end CellFilter
