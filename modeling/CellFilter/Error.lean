import CellFilter.Scalar
import CellFilter.Text.Quoted
import CellFilter.Wire.Key

/-!
# Errors

Every way in which building, shipping or evaluating a filter can fail, by cause.  The wording of a
cause is in its `message` or `reason` and nowhere else.
-/

namespace CellFilter

/-- What can be wrong with an encoded payload, unit, predicate or group. -/
inductive PayloadFault where
  | missingGzipHeader
  | gzipStream
  | invalidBool (value : UInt8)
  | invalidString (fault : Utf8.Fault)
  | invalidComparatorState (fault : Utf8.Fault)
  | duplicateType (name : String)
  | negativeFieldNumber (scope : String)
  | unitsNestedTooDeeply
  | tooManyDependencies (unit : String) (count : Nat)
  | unitNotYetDefined (unit : String)
  | unitNameMismatch (unit carried : String)
  | trailingAfterRootUnit
  | undeclaredTarget (name : String)
  | trailingAfterPredicate
  | groupsNestedTooDeeply
  | trailingInGroup
  | trailingAfterGroup
  deriving DecidableEq, Repr

/-- The wording of a fault. -/
def PayloadFault.reason : PayloadFault → String
  | .missingGzipHeader => "missing gzip header"
  | .gzipStream => "gzip stream"
  | .invalidBool value => s!"invalid bool byte {value}"
  | .invalidString fault => s!"invalid UTF-8 string: {fault.text}"
  | .invalidComparatorState fault => s!"comparator state: {fault.text}"
  | .duplicateType name => s!"duplicate type {name}"
  | .negativeFieldNumber scope => s!"negative field number in {scope}"
  | .unitsNestedTooDeeply => "units nested too deeply"
  | .tooManyDependencies unit count => s!"unit {unit} claims {count} dependencies"
  | .unitNotYetDefined unit => s!"unit {unit} is referenced before it is defined"
  | .unitNameMismatch unit carried => s!"unit {unit} carries descriptor for {carried}"
  | .trailingAfterRootUnit => "trailing bytes after root unit"
  | .undeclaredTarget name => s!"payload does not declare {name}"
  | .trailingAfterPredicate => "trailing bytes after predicate"
  | .groupsNestedTooDeeply => "predicate groups nested too deeply"
  | .trailingInGroup => "trailing bytes in predicate group body"
  | .trailingAfterGroup => "trailing bytes after predicate group"

/-- What can be wrong with an encoded message. -/
inductive MessageFault where
  | nestedTooDeep
  | unexpectedWireType (field : String) (actual expected : WireType)
  | lengthPastEnd (length : Nat)
  | fixedWidthPastEnd
  | groupEncoding
  | invalidText (field : String)
  /-- The contents have a shape that values of the field's kind never have. -/
  | kindMismatch (field : String) (wireType : WireType)
  /-- The type of a message field is not in its pool. -/
  | missingFieldSchema
  deriving DecidableEq, Repr

/-- The wording of a fault. -/
def MessageFault.reason : MessageFault → String
  | .nestedTooDeep => "nesting too deep"
  | .unexpectedWireType field actual expected =>
    s!"field {field} has wire type {actual.name}, expected {expected.name}"
  | .lengthPastEnd length => s!"length {length} past end of buffer"
  | .fixedWidthPastEnd => "fixed-width value past end of buffer"
  | .groupEncoding => "group encoding is not supported"
  | .invalidText field => s!"field {field} is not valid UTF-8"
  | .kindMismatch field wireType =>
    match wireType with
    | .varint => s!"field {field} is not a varint"
    | .thirtyTwoBit => s!"field {field} is not 32-bit"
    | .sixtyFourBit => s!"field {field} is not 64-bit"
    | _ => s!"field {field} is not length-delimited"
  | .missingFieldSchema => "message field without schema"

/-- What can be wrong with the operand of a predicate. -/
inductive OperandFault where
  | messageForScalarMatch
  | nothingToCompareWith (path : String)
  | messageRequired (match_ : String)
  | bothOperands
  | noValue
  deriving DecidableEq, Repr

/-- The wording of a fault. -/
def OperandFault.reason : OperandFault → String
  | .messageForScalarMatch => "scalar predicate with a message operand"
  | .nothingToCompareWith path => s!"no operand or comparator for {path}"
  | .messageRequired match_ => s!"{match_} match requires a message operand"
  | .bothOperands => "both scalar and message operands present"
  | .noValue => "operand carries no value"

/-- Why an operation on schemas or filters failed. -/
inductive FilterError where
  | schemaNotFound (name : String)
  | missingPayload (name : String)
  | undeclaredDependency (unit dependency : String)
  | unresolvedType (typeName scope : String)
  | dependencyCycle (unit : String)
  | unsupportedFieldType (field kind : String)
  | invalidDefault (field value : String)
  | malformedPayload (fault : PayloadFault)
  | unsupportedVersion (version : UInt8)
  | truncated (needed available : Nat)
  | malformedMessage (message : String) (fault : MessageFault)
  | pathEndsOnMessage (path field : String)
  | repeatedField (field : String)
  | typeMismatch (operand scalar : ScalarType)
  | unknownMatchOp (key : UInt8)
  | unknownCompareOp (ordinal : UInt8)
  | unknownOperator (tag : UInt8)
  | unknownFilterKind (tag : UInt8)
  | unknownComparator (kind : String)
  | invalidOperand (fault : OperandFault)
  | scalarMessageMatch
  | undecodable (fault : WireFault)
  | invalidPattern
  deriving DecidableEq, Repr

/-- The wording of an error. -/
def FilterError.message : FilterError → String
  | .schemaNotFound name => s!"Schema not found for message type {name}"
  | .missingPayload name =>
    s!"No schema payload supplied for {name} and no cached schema under its key"
  | .undeclaredDependency unit dependency =>
    s!"Unit {unit} depends on {dependency}, which was not supplied"
  | .unresolvedType typeName scope => s!"Unresolved type reference {typeName} in {scope}"
  | .dependencyCycle unit => s!"Dependency cycle through unit {unit}"
  | .unsupportedFieldType field kind => s!"Unsupported field type {kind} for field {field}"
  | .invalidDefault field value =>
    "Invalid default value " ++ Quoted.showText value ++ s!" for field {field}"
  | .malformedPayload fault => s!"Malformed payload: {fault.reason}"
  | .unsupportedVersion version => s!"Unsupported payload format version {version}"
  | .truncated needed available => s!"Truncated input: need {needed} bytes, have {available}"
  | .malformedMessage message fault => s!"Malformed message {message}: {fault.reason}"
  | .pathEndsOnMessage path field => s!"Field path {path} ends on message-typed field {field}"
  | .repeatedField field => s!"Field {field} is repeated and cannot be compared as a scalar"
  | .typeMismatch operand scalar =>
    s!"Cannot compare {operand.name} operand with {scalar.name} field value"
  | .unknownMatchOp key => s!"Unknown match op key {key}"
  | .unknownCompareOp ordinal => s!"Unknown compare op ordinal {ordinal}"
  | .unknownOperator tag => s!"Unknown group operator tag {tag}"
  | .unknownFilterKind tag => s!"Unknown filter kind tag {tag}"
  | .unknownComparator kind => s!"Unknown byte comparator kind {kind}"
  | .invalidOperand fault => s!"Invalid operand: {fault.reason}"
  | .scalarMessageMatch => "Scalar match op used for whole-message matching"
  | .undecodable fault =>
    s!"Protobuf decode error: failed to decode Protobuf message: {fault.detail}"
  | .invalidPattern => "Regex error"

end CellFilter
