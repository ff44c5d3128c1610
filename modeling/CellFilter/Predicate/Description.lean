import CellFilter.Predicate.Basic
import CellFilter.Schema.Field

/-!
# Descriptions of predicates

How predicates and registries of comparators are shown to a developer.
-/

namespace CellFilter

/-- The description of a scalar: its variant and its contents. -/
def Scalar.describe : Scalar → String
  | .string s => "String(" ++ Quoted.showText s ++ ")"
  | .int n => s!"Int({n.toInt})"
  | .long n => s!"Long({n.toInt})"
  | .float x => "Float(" ++ x.render Atom.numberStyle ++ ")"
  | .double x => "Double(" ++ x.render Atom.numberStyle ++ ")"
  | .bool b => "Bool(" ++ (if b then "true" else "false") ++ ")"
  | .bytes b => "Bytes(" ++ describeBytes b ++ ")"

/-- The description of an operand. -/
def Operand.describe : Operand → String
  | .scalar value => "Scalar(" ++ value.describe ++ ")"
  | .message encoded => "Message(" ++ Quoted.showBytes encoded ++ ")"

/-- The description of a registry: the known names. -/
def ComparatorRegistry.describe (registry : ComparatorRegistry) : String :=
  braced "ComparatorRegistry"
    [("kinds", "[" ++ ", ".intercalate (registry.names.map Quoted.showText) ++ "]")]

/-- The description of a schema key, with the hash in decimal digits. -/
def SchemaKey.describe (key : SchemaKey) : String :=
  braced "SchemaKey" [("name", Quoted.showText key.name),
    ("hash", s!"ContentHash({key.hash.value.toNat})")]

namespace ColumnPredicate

/-- The column as a text: family, colon, qualifier. -/
def columnText (p : ColumnPredicate) : String :=
  Utf8.decodeLossy p.family ++ ":" ++ Utf8.decodeLossy p.qualifier

/-- The description of a predicate; of the payload it tells the length alone. -/
def describe (p : ColumnPredicate) : String :=
  braced "ColumnPredicate" [("column", Quoted.showText p.columnText),
    ("match_op", p.matchOp.name), ("compare_op", p.compareOp.name),
    ("field_spec", Quoted.showText p.path), ("operand", describeOption Operand.describe p.operand?),
    ("schema", p.key.describe),
    ("payload_bytes", describeOption (fun b => toString b.length) p.payload?),
    ("comparator", describeOption Comparator.description p.comparator?)]

end ColumnPredicate

end CellFilter
