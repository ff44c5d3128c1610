import CellFilter.Proofs.Message.Invariant
import CellFilter.Proofs.Path.Unsigned
import CellFilter.Proofs.Schema.Resolution

/-!
# The type of a path

What a path yields has a type that the schema alone tells: that of the field at the end of the path.
Reading a value, reading a declared default and turning either into a scalar go by the kind of the
field, each in its own way, and the three agree.  So no cell decides whether an operand can be
compared with what a path yields.

* `FieldKind.scalarType?`: the type of the scalars of a kind.
* `Field.default_holds`: a declared default is a value of the kind of its field.
* `Path.typeAt?`: the type that a schema tells for a path.
* `Path.extractChars_type`: a value that is read has that type.
* `Path.one_type`: **a path has one type**, and an operand suits all of its values or none.
-/

namespace CellFilter

open Outcome

/-! ## Kinds -/

/-- The type of the scalars of a kind; messages have none, and enumerations yield names. -/
def FieldKind.scalarType? : FieldKind → Option ScalarType
  | .double => some .double
  | .float => some .float
  | .int32 | .sint32 | .sfixed32 | .uint32 | .fixed32 => some .int
  | .int64 | .sint64 | .sfixed64 | .uint64 | .fixed64 => some .long
  | .bool => some .bool
  | .string | .enum _ => some .string
  | .bytes => some .bytes
  | .message _ => none

/-- The scalar of a value of a kind has the type of the kind. -/
theorem FieldKind.Holds.scalarType? {kind : FieldKind} {a : Atom} (h : kind.Holds a)
    (symbols : Option EnumType) : kind.scalarType? = some (a.toScalar symbols).type := by
  cases kind <;> cases a <;> first | rfl | exact h.elim

/-- A default that can be read is a value of the kind. -/
theorem Default.holds_of_read? {kind : FieldKind} {symbols : Option EnumType} {text : String}
    {a : Atom} (h : read? kind symbols text = some a) : kind.Holds a := by
  cases kind with
  | bool =>
    unfold read? at h
    split_ifs at h <;> cases h <;> trivial
  | string => cases h; trivial
  | message i => cases h
  | _ =>
    obtain ⟨x, -, rfl⟩ := Option.map_eq_some_iff.mp h
    trivial

namespace Schema

variable {s : Schema} {f : Field}

/-- **A declared default** is a value of the kind of its field. -/
theorem default_holds (hs : s.pool.Built) (hf : f ∈ s.fields) {a : Atom} (h : f.default? = some a) :
    f.kind.Holds a := by
  obtain ⟨-, -, hfields⟩ := exists_declared hs
  obtain ⟨d, -, hmade⟩ := forall₂_right_mem (mapM_eq_ok_iff.mp hfields) f hf
  obtain ⟨kind, default?, -, hdefault, -, rfl⟩ := SchemaPool.resolveField_eq_ok.mp hmade
  obtain rfl : default? = some a := h
  unfold SchemaPool.fieldDefault at hdefault
  split at hdefault
  · cases hdefault
  · split at hdefault
    · next hread =>
      cases hdefault
      exact Default.holds_of_read? hread
    · cases hdefault

/-- Where fields have numbers of their own, the number of a field leads back to it. -/
theorem fieldByNumber?_of_mem (h : (s.fields.map Field.number).Nodup) (hf : f ∈ s.fields) :
    s.fieldByNumber? f.number = some f := by
  have hfound : (s.fieldByNumber? f.number).isSome = true :=
    List.find?_isSome.mpr ⟨f, List.mem_reverse.mpr hf, beq_self_eq_true _⟩
  obtain ⟨g, hg⟩ := Option.isSome_iff_exists.mp hfound
  have hsame := List.inj_on_of_nodup_map h (mem_fields_of_number hg) hf
    (Message.fieldByNumber?_number hg)
  rw [hg, hsame]

theorem fieldByName?_mem {name : String} (h : s.fieldByName? name = some f) : f ∈ s.fields :=
  List.mem_of_find?_eq_some h

end Schema

/-- The fields of each message have numbers of their own. -/
def SchemaPool.NumbersApart (pool : SchemaPool) : Prop :=
  ∀ m ∈ pool.messages, (m.fields.map Field.number).Nodup

namespace Message.Conforms

variable {m : Message} {f : Field} {v : Value}

/-- What stands under the number of a field. -/
theorem value (h : m.Conforms) (hf : m.schema.fieldByNumber? f.number = some f)
    (hv : m.get? f.number = some v) : v.Conforms m.schema f f.repeated := by
  obtain ⟨s, fs⟩ := m
  exact h.2.lookup hf v hv

end Message.Conforms

namespace Path

/-! ## What the schema tells -/

/-- The type of what a path yields, as far as the schema tells. -/
def typeAt? (path : List Char) (s : Schema) : Option ScalarType :=
  match s.fieldByName? (String.ofList (head path)) with
  | none => none
  | some field =>
    match s.messageSchema? field with
    | some inner => if isBlank (rest path) then none else typeAt? (rest path) inner
    | none => field.kind.scalarType?
termination_by path.length
decreasing_by exact rest_length ‹_›

variable {p : List Char} {s owner : Schema} {m n : Message} {f : Field} {name path : String} {a : Atom}
  {v o : Scalar}

/-- A message that a name leads to is one of the type of its field. -/
theorem conforms_of_look (hm : m.Conforms) (hnumbers : m.schema.pool.NumbersApart)
    (h : look m name = .message f n) : m.schema.fieldByName? name = some f ∧
      m.schema.messageSchema? f = some n.schema ∧ n.Conforms := by
  obtain ⟨hfield, hvalue⟩ := of_look_message h
  have hnumber := Schema.fieldByNumber?_of_mem (hnumbers _ m.schema.type_mem)
    (Schema.fieldByName?_mem hfield)
  obtain ⟨-, hschema, hinner⟩ := hm.value hnumber hvalue
  exact ⟨hfield, hschema, hinner⟩

/-- A value that a name leads to is one of the kind of its field, be it present or the default. -/
theorem holds_of_look (hm : m.Conforms) (hs : m.schema.pool.Built)
    (hnumbers : m.schema.pool.NumbersApart) (h : look m name = .value owner f a) :
    owner = m.schema ∧ m.schema.fieldByName? name = some f ∧ f.kind.Holds a := by
  obtain ⟨howner, hfield, hvalue | ⟨-, hdefault⟩⟩ := of_look_value h
  · have hnumber := Schema.fieldByNumber?_of_mem (hnumbers _ m.schema.type_mem)
      (Schema.fieldByName?_mem hfield)
    obtain ⟨-, hholds⟩ := hm.value hnumber hvalue
    exact ⟨howner, hfield, hholds⟩
  · exact ⟨howner, hfield, Schema.default_holds hs (Schema.fieldByName?_mem hfield) hdefault⟩

/-- **What a path yields** has the type that the schema tells, however deep the path goes. -/
theorem extractChars_type (hs : s.pool.Built) (hnumbers : s.pool.NumbersApart) (hm : m.Conforms)
    (hschema : m.schema = s) (h : extractChars p m = .ok (some v)) :
    typeAt? p s = some v.type := by
  induction hlen : p.length using Nat.strong_induction_on generalizing p s m with
  | _ len ih =>
    subst hschema
    rw [typeAt?]
    cases hlook : look m (String.ofList (head p)) with
    | message f inner =>
      rw [extractChars_message hlook] at h
      obtain ⟨hfield, hinner, hconforms⟩ := conforms_of_look hm hnumbers hlook
      have hpool := Schema.messageSchema?_pool hinner
      rw [hfield]
      dsimp only
      rw [hinner]
      dsimp only
      split_ifs at h ⊢ with hblank
      exact ih _ (hlen ▸ rest_length hblank) (hpool ▸ hs) (hpool ▸ hnumbers) hconforms rfl h rfl
    | value owner f a =>
      rw [extractChars_of_not_message (by simp [hlook]), hlook] at h
      cases h
      obtain ⟨rfl, hfield, hholds⟩ := holds_of_look hm hs hnumbers hlook
      rw [hfield]
      dsimp only
      cases hinner : m.schema.messageSchema? f with
      | none => exact hholds.scalarType? _
      | some inner => exact absurd hholds (FieldKind.not_holds hinner a)
    | nowhere =>
      rw [extractChars_of_not_message (by simp [hlook]), hlook] at h
      cases h
    | list f =>
      rw [extractChars_of_not_message (by simp [hlook]), hlook] at h
      cases h

/-! ## Operands -/

end Path

namespace Scalar

variable {v o : Scalar}

theorem exists_compareTo? (h : o.type = v.type) : ∃ r, v.compareTo? o = some r := by
  cases v <;> cases o <;> first | exact ⟨_, rfl⟩ | cases h

theorem compareTo?_eq_none (htext : o.type ≠ .string) (h : o.type ≠ v.type) :
    v.compareTo? o = none := by
  cases o <;> cases v <;> first | rfl | exact absurd rfl h | exact absurd rfl htext

end Scalar

namespace Path

variable {s : Schema} {m : Message} {path : String} {v o : Scalar}

/-- A value is not compared with an operand that is neither a text nor of its type. -/
theorem compare_of_mismatch (hv : extract path m = .ok (some v)) (htext : o.type ≠ .string)
    (h : o.type ≠ v.type) (op : CompareOp) :
    compare path (some o) op m none = .error (.typeMismatch o.type v.type) := by
  rw [compare, hv, ok_bind]
  dsimp only
  rw [Scalar.compareTo?_eq_none htext h]
  rfl

/-- **A path has one type**: all that it yields, in whatever message of the schema, present or the
default, is of that type.  So an operand that is no text can be compared with all of it or with none
of it.  Fields that share a name do not matter, as the first of them is read always. -/
theorem one_type (hs : s.pool.Reachable) (hnumbers : s.pool.NumbersApart) (path : String) :
    ∃ t : ScalarType,
      (∀ bytes m v, Message.decode s bytes = .ok m → extract path m = .ok (some v) →
        v.type = t) ∧
      ∀ (operand : Scalar) (op : CompareOp), operand.type ≠ .string →
        (operand.type = t ∧ ∀ bytes m v, Message.decode s bytes = .ok m →
          extract path m = .ok (some v) → ∃ r, v.compareTo? operand = some r ∧
            compare path (some operand) op m none = .ok (op.acceptsOrdering r)) ∨
        (operand.type ≠ t ∧ ∀ bytes m v, Message.decode s bytes = .ok m →
          extract path m = .ok (some v) →
            compare path (some operand) op m none = .error (.typeMismatch operand.type t)) := by
  have htype : ∀ bytes m v, Message.decode s bytes = .ok m → extract path m = .ok (some v) →
      v.type = (typeAt? path.toList s).getD .string := by
    intro bytes m v hm hv
    obtain ⟨hschema, hconforms⟩ := Message.conforms_of_decode hm
    rw [extractChars_type hs.built hnumbers hconforms hschema hv, Option.getD_some]
  refine ⟨_, htype, fun operand op htext => ?_⟩
  by_cases hoperand : operand.type = (typeAt? path.toList s).getD .string
  · refine .inl ⟨hoperand, fun bytes m v hm hv => ?_⟩
    obtain ⟨r, hr⟩ := Scalar.exists_compareTo? (hoperand.trans (htype _ _ _ hm hv).symm)
    exact ⟨r, hr, compare_of_ordered hv hr op⟩
  · refine .inr ⟨hoperand, fun bytes m v hm hv => ?_⟩
    rw [← htype _ _ _ hm hv] at hoperand ⊢
    exact compare_of_mismatch hv htext hoperand op

/-- A unit with a message of its own type inside and a total that is seven by default. -/
def gaugeUnit : FileDescriptor where
  name? := some "gauge.proto"
  package? := some "demo"
  dependencies := []
  messages := [⟨some "Gauge",
    [⟨some "total", none, some 1, some 1, some 3, none, some "7", []⟩,
      ⟨some "inner", none, some 2, some 1, some 11, some ".demo.Gauge", none, []⟩], [], [], []⟩]
  enums := []
  carried := []

/-- The pool of the unit. -/
def gaugePool : SchemaPool where
  files := [gaugeUnit]
  messages := [⟨"demo.Gauge", 0, [0],
    [⟨"total", "demo.Gauge.total", 1, .int64, false, some (.i64 7)⟩,
      ⟨"inner", "demo.Gauge.inner", 2, .message 0, false, none⟩]⟩]
  enums := []
  types := [("demo.Gauge", .message 0)]

/-- The message of the unit. -/
def gaugeSchema : Schema := ⟨gaugePool, 0, Nat.one_pos⟩

/-- A gauge in whose inner gauge nothing is present, and one with a total there. -/
def gaugeOf (fields : List (Nat × Value)) : Message :=
  ⟨gaugeSchema, [(2, .message ⟨gaugeSchema, fields⟩)]⟩

/-- A total that is present and one that is the default can both be compared with a number of 64 bits,
and neither with one of 32 bits. -/
theorem one_type_gauge : gaugeSchema.pool.Reachable ∧ gaugeSchema.pool.NumbersApart ∧
    Message.decode gaugeSchema [18, 2, 8, 5] = .ok (gaugeOf [(1, .atom (.i64 5))]) ∧
    Message.decode gaugeSchema [18, 0] = .ok (gaugeOf []) ∧
    extract "inner.total" (gaugeOf [(1, .atom (.i64 5))]) = .ok (some (.long 5)) ∧
    extract "inner.total" (gaugeOf []) = .ok (some (.long 7)) ∧
    compare "inner.total" (some (.int 5)) .less (gaugeOf [(1, .atom (.i64 5))]) none =
      .error (.typeMismatch .int .long) ∧
    compare "inner.total" (some (.int 5)) .less (gaugeOf []) none =
      .error (.typeMismatch .int .long) ∧
    ∃ r, (Scalar.long 7).compareTo? (.long 5) = some r ∧
      compare "inner.total" (some (.long 5)) .less (gaugeOf []) none =
        .ok (CompareOp.less.acceptsOrdering r) := by
  have hpool : gaugeSchema.pool.Reachable :=
    .add .empty (show SchemaPool.empty.addFile gaugeUnit = .ok gaugePool by rfl)
  have hnumbers : gaugeSchema.pool.NumbersApart := by
    intro m hm
    cases List.mem_singleton.mp hm
    decide
  have hpresent : Message.decode gaugeSchema [18, 2, 8, 5] =
    .ok (gaugeOf [(1, .atom (.i64 5))]) := rfl
  have habsent : Message.decode gaugeSchema [18, 0] = .ok (gaugeOf []) := rfl
  have hfive : extract "inner.total" (gaugeOf [(1, .atom (.i64 5))]) = .ok (some (.long 5)) := by
    decide +kernel
  have hseven : extract "inner.total" (gaugeOf []) = .ok (some (.long 7)) := by decide +kernel
  obtain ⟨t, htype, hoperand⟩ := one_type hpool hnumbers "inner.total"
  obtain rfl : ScalarType.long = t := htype _ _ _ hpresent hfive
  obtain ⟨-, hmismatch⟩ := (hoperand (.int 5) .less (by decide)).resolve_left fun h => by cases h.1
  obtain ⟨-, hmatch⟩ := (hoperand (.long 5) .less (by decide)).resolve_right fun h => h.1 rfl
  exact ⟨hpool, hnumbers, hpresent, habsent, hfive, hseven, hmismatch _ _ _ hpresent hfive,
    hmismatch _ _ _ habsent hseven, hmatch _ _ _ habsent hseven⟩

end Path

end CellFilter
