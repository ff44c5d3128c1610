import CellFilter.Message.Decode
import CellFilter.Proofs.Schema.Declared
import CellFilter.Proofs.Wire.Front

/-!
# What reading a message may fail with

The contents of a field are only read once their shape was found to be that of the field's kind, and a
field is only read in one run if its kind allows runs.  So the complaint that a kind has no values of a
shape is never made, whatever the schema.  The complaint that the type of a message field is missing
would need a field that refers to nothing.

* `MessageFault.isInternal`: the complaints of the reader about itself.
* `ReadFault`: the errors that reading messages of a pool may come to.
* `Message.decode_fails`: **there are no others**.
-/

namespace CellFilter

open Outcome

/-- Whether a fault would not be one of the bytes: a kind that has no values of the shape that was asked
for, or a message field whose type is not there. -/
def MessageFault.isInternal : MessageFault → Bool
  | .kindMismatch _ _ => true
  | .missingFieldSchema => true
  | _ => false

/-- Whether a field refers to a message that the pool does not have. -/
def SchemaPool.Dangles (pool : SchemaPool) : Prop :=
  ∃ m ∈ pool.messages, ∃ f ∈ m.fields, ∃ i, f.kind = .message i ∧ pool.messages.length ≤ i

/-- The errors that reading messages of a pool may come to. -/
inductive ReadFault (pool : SchemaPool) : FilterError → Prop
  /-- The bytes are no fields. -/
  | undecodable (fault : WireFault) : ReadFault pool (.undecodable fault)
  /-- The fields are none of the message, or not as they are declared. -/
  | malformed (message : String) {fault : MessageFault} (h : fault.isInternal = false) :
      ReadFault pool (.malformedMessage message fault)
  /-- A field refers to nothing. -/
  | dangling (message : String) (h : pool.Dangles) :
      ReadFault pool (.malformedMessage message .missingFieldSchema)

theorem FieldKind.exists_atomOfVarint {kind : FieldKind} (h : kind.wireType = .varint) (n : Nat) :
    ∃ a, Message.atomOfVarint kind n = some a := by
  cases kind <;> first | exact ⟨_, rfl⟩ | cases h

theorem FieldKind.exists_atomOfWord32 {kind : FieldKind} (h : kind.wireType = .thirtyTwoBit)
    (word : UInt32) : ∃ a, Message.atomOfWord32 kind word = some a := by
  cases kind <;> first | exact ⟨_, rfl⟩ | cases h

theorem FieldKind.exists_atomOfWord64 {kind : FieldKind} (h : kind.wireType = .sixtyFourBit)
    (word : UInt64) : ∃ a, Message.atomOfWord64 kind word = some a := by
  cases kind <;> first | exact ⟨_, rfl⟩ | cases h

theorem Schema.ofIndex?_eq_none {pool : SchemaPool} {i : Nat} :
    Schema.ofIndex? pool i = none ↔ pool.messages.length ≤ i := by
  rw [Schema.ofIndex?, dite_eq_right_iff]
  simp

theorem Schema.messageSchema?_pool {s t : Schema} {f : Field} (h : s.messageSchema? f = some t) :
    t.pool = s.pool := by
  unfold Schema.messageSchema? at h
  split at h
  · unfold Schema.ofIndex? at h
    split_ifs at h
    cases h
    rfl
  · cases h

namespace Message

variable {pool : SchemaPool} {schema : Schema} {field : Field} {nested : ReadNested}

/-! ## Contents -/

theorem fault_fails {α : Type} {cause : MessageFault} (h : cause.isInternal = false) :
    FailsOnly (ReadFault pool) (fault schema cause : Except FilterError α) :=
  .error (.malformed schema.fullName h)

theorem readVarint_fails (bytes : Bytes) : FailsOnly (ReadFault pool) (readVarint bytes) := by
  unfold readVarint
  split
  · exact .ok _
  · exact .error (.undecodable _)

theorem readDelimited_fails (bytes : Bytes) :
    FailsOnly (ReadFault pool) (readDelimited schema bytes) := by
  refine (readVarint_fails bytes).bind fun r _ => ?_
  dsimp only
  split_ifs
  · exact .ok _
  · exact fault_fails rfl

theorem readFixed_fails (width : Nat) (bytes : Bytes) :
    FailsOnly (ReadFault pool) (readFixed schema width bytes) := by
  unfold readFixed
  split_ifs
  · exact .ok _
  · exact fault_fails rfl

theorem skip_fails (wireType : WireType) (bytes : Bytes) :
    FailsOnly (ReadFault pool) (skip schema wireType bytes) := by
  cases wireType with
  | varint => exact (readVarint_fails bytes).bind fun _ _ => .ok _
  | thirtyTwoBit => exact (readFixed_fails 4 bytes).bind fun _ _ => .ok _
  | sixtyFourBit => exact (readFixed_fails 8 bytes).bind fun _ _ => .ok _
  | lengthDelimited => exact (readDelimited_fails bytes).bind fun _ _ => .ok _
  | startGroup => exact fault_fails rfl
  | endGroup => exact fault_fails rfl

/-- A number of the shape that values of the kind have stands for a value. -/
theorem number_fails {wireType : WireType} {x : Except FilterError (Nat × Bytes)}
    (hx : FailsOnly (ReadFault pool) x) {atom : Nat → Option Atom} (hatom : ∀ n, ∃ a, atom n = some a) :
    FailsOnly (ReadFault pool) (x >>= fun r => ofKind schema field wireType (atom r.1) >>= fun a =>
      (pure (a, r.2) : Except FilterError (Atom × Bytes))) := by
  refine hx.bind fun r _ => ?_
  obtain ⟨a, ha⟩ := hatom r.1
  rw [ha]
  exact .ok _

theorem readAtom_fails (hkind : ∀ i, field.kind ≠ .message i) (bytes : Bytes) :
    FailsOnly (ReadFault pool) (readAtom schema field field.kind.wireType bytes) := by
  cases hshape : field.kind.wireType with
  | varint => exact number_fails (readVarint_fails bytes) fun n => FieldKind.exists_atomOfVarint hshape n
  | thirtyTwoBit =>
    exact number_fails (readFixed_fails 4 bytes) fun n =>
      FieldKind.exists_atomOfWord32 hshape n.toUInt32
  | sixtyFourBit =>
    exact number_fails (readFixed_fails 8 bytes) fun n =>
      FieldKind.exists_atomOfWord64 hshape n.toUInt64
  | lengthDelimited =>
    refine (readDelimited_fails bytes).bind fun r _ => ?_
    dsimp only
    cases hk : field.kind with
    | string =>
      dsimp only
      split
      · exact .ok _
      · exact fault_fails rfl
    | bytes => exact .ok _
    | message i => exact absurd hk (hkind i)
    | _ => rw [hk] at hshape; cases hshape
  | startGroup => exact fault_fails rfl
  | endGroup => exact fault_fails rfl

theorem runStep_fails (hrun : field.kind.isPackable = true) (values : List Value) (bytes : Bytes) :
    FailsOnly (ReadFault pool) (runStep schema field values bytes) := by
  have hkind : ∀ i, field.kind ≠ .message i := fun i hk => by rw [hk] at hrun; cases hrun
  exact (readAtom_fails hkind bytes).bind fun _ _ => .ok _

/-! ## Fields and messages -/

/-- Nested messages fail as messages of their pool do. -/
def NestedFails (nested : ReadNested) : Prop :=
  ∀ s bytes, FailsOnly (ReadFault s.pool) (nested s bytes)

theorem readValue_fails (hn : NestedFails nested) (hfield : field ∈ schema.fields)
    (wireType : WireType) (bytes : Bytes) :
    FailsOnly (ReadFault schema.pool) (readValue nested schema field wireType bytes) := by
  unfold readValue checkWireType
  split_ifs with hshape
  · have hatom : (∀ i, field.kind ≠ .message i) → FailsOnly (ReadFault schema.pool)
        (readAtom schema field wireType bytes >>= fun r => pure (Value.atom r.1, r.2)) :=
      fun hkind => (hshape ▸ readAtom_fails hkind bytes).bind fun _ _ => .ok _
    rw [ok_bind]
    cases hk : field.kind with
    | message i =>
      refine (readDelimited_fails bytes).bind fun r _ => ?_
      dsimp only
      cases hschema : schema.messageSchema? field with
      | some inner =>
        exact (Schema.messageSchema?_pool hschema ▸ hn inner r.1).bind fun _ _ => .ok _
      | none =>
        rw [Schema.messageSchema?, hk] at hschema
        have hout := Schema.ofIndex?_eq_none.mp hschema
        exact .error (.dangling _ ⟨schema.type, schema.type_mem, field, hfield, i, hk, hout⟩)
    | _ => exact hatom fun i h => by rw [hk] at h; cases h
  · exact fault_fails rfl

theorem step_fails (hn : NestedFails nested) (d : Draft) (bytes : Bytes) :
    FailsOnly (ReadFault schema.pool) (step nested schema d bytes) := by
  refine (FailsOnly.mapError .undecodable _).bind fun r _ => ?_
  dsimp only
  cases hfound : schema.fieldByNumber? r.1.number with
  | none => exact (skip_fails _ _).bind fun _ _ => .ok _
  | some field =>
    have hfield : field ∈ schema.fields :=
      List.mem_reverse.mp (List.mem_of_find?_eq_some hfound)
    dsimp only
    split_ifs with hrun hrepeated
    · refine (readDelimited_fails _).bind fun run _ => ?_
      have hpackable : field.kind.isPackable = true := (Bool.and_eq_true _ _ ▸ hrun).2
      exact (consumeAll_fails (runStep_fails hpackable) _ _).bind fun _ _ => .ok _
    · exact (readValue_fails hn hfield _ _).bind fun _ _ => .ok _
    · exact (readValue_fails hn hfield _ _).bind fun _ _ => .ok _

theorem decodeWithin_fails : ∀ levels : Nat, NestedFails (decodeWithin levels)
  | 0 => fun _ _ => fault_fails rfl
  | levels + 1 => fun _ _ =>
    (consumeAll_fails (step_fails (decodeWithin_fails levels)) _ _).bind fun _ _ => .ok _

/-- **Reading a message** fails for its bytes, or because a field of its pool refers to nothing. -/
theorem decode_fails (s : Schema) (bytes : Bytes) : FailsOnly (ReadFault s.pool) (decode s bytes) :=
  decodeWithin_fails _ s bytes

end Message

end CellFilter
