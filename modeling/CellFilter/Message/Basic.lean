import CellFilter.Schema.Basic

/-!
# Messages

A message holds the fields that were explicitly present when it was read, by number and in the order
of the numbers.  Merging two messages follows the rule of the wire: repeated fields are joined,
message fields merge in turn, and of any other field the later value stays.
-/

namespace CellFilter

mutual

/-- The value of a field. -/
inductive Value where
  | atom (a : Atom)
  | message (m : Message)
  /-- All values of a repeated field, in the order in which they were read. -/
  | list (values : List Value)

/-- A message of a schema: its present fields in the order of their numbers. -/
inductive Message where
  | mk (schema : Schema) (fields : List (Nat × Value))

end

namespace Message

/-- The schema of a message. -/
def schema : Message → Schema
  | ⟨schema, _⟩ => schema

/-- The present fields, by number and in the order of the numbers. -/
def fields : Message → List (Nat × Value)
  | ⟨_, fields⟩ => fields

/-- The value of a field, if it is present. -/
def get? (m : Message) (number : Nat) : Option Value := m.fields.lookup number

/-- The value of a field given by name, if it is present. -/
def getByName? (m : Message) (name : String) : Option Value :=
  (m.schema.fieldByName? name).bind fun field => m.get? field.number

/-- Whether no field is present. -/
def isEmpty (m : Message) : Bool := m.fields.isEmpty

/-- The present fields with their declarations, in the order of their numbers. -/
def presentFields (m : Message) : List (Field × Value) :=
  m.fields.filterMap fun entry => (m.schema.fieldByNumber? entry.1).map fun f => (f, entry.2)

end Message

/-- Puts a value into a list of fields, in place of an earlier value of that number. -/
def putField (fields : List (Nat × Value)) (number : Nat) (value : Value) : List (Nat × Value) :=
  match fields with
  | [] => [(number, value)]
  | (n, v) :: rest =>
    if n < number then (n, v) :: putField rest number value
    else if n = number then (number, value) :: rest
    else (number, value) :: (n, v) :: rest

mutual

/-- What a field holds once a value is merged into it: messages merge and lists are joined, and of
anything else the later value stays. -/
def Value.merge (existing : Option Value) : Value → Value
  | .atom a => .atom a
  | .message later =>
    match existing with
    | some (.message earlier) => .message (Message.merge earlier later)
    | _ => .message later
  | .list more =>
    match existing with
    | some (.list values) => .list (values ++ more)
    | _ => .list more

/-- Merges a later message into an earlier one. -/
def Message.merge (earlier : Message) : Message → Message
  | ⟨_, later⟩ => ⟨earlier.schema, mergeFields earlier.fields later⟩

/-- Merges fields one by one. -/
def mergeFields (fields : List (Nat × Value)) : List (Nat × Value) → List (Nat × Value)
  | [] => fields
  | (number, value) :: rest =>
    mergeFields (putField fields number (Value.merge (fields.lookup number) value)) rest

end

mutual

/-- Equality of values: floating-point numbers are compared as numbers, so that NaN differs from
itself, and messages by name and present fields. -/
def Value.valueEq : Value → Value → Bool
  | .atom a, .atom b => a.valueEq b
  | .message a, .message b => Message.valueEq a b
  | .list as, .list bs => listEq as bs
  | _, _ => false

/-- Equality of messages of equal name. -/
def Message.valueEq : Message → Message → Bool
  | ⟨s, as⟩, ⟨t, bs⟩ => s.fullName == t.fullName && fieldsEq as bs

/-- Equality of lists of values. -/
def listEq : List Value → List Value → Bool
  | [], [] => true
  | a :: as, b :: bs => a.valueEq b && listEq as bs
  | _, _ => false

/-- Equality of lists of fields. -/
def fieldsEq : List (Nat × Value) → List (Nat × Value) → Bool
  | [], [] => true
  | (m, a) :: as, (n, b) :: bs => m == n && a.valueEq b && fieldsEq as bs
  | _, _ => false

end

end CellFilter
