import CellFilter.Json
import CellFilter.Schema.Basic

/-!
# Printed summaries

The JSON form of the summary of a schema.  A field without a default has no such member.
-/

namespace CellFilter

/-- A field of a summary as a value to be printed. -/
def FieldSummary.json (field : FieldSummary) : Json :=
  .record ([("name", .text field.name), ("number", .number field.number),
    ("kind", .text field.kind), ("repeated", .boolean field.repeated)] ++
    (field.default?.map fun text => ("default", Json.text text)).toList)

/-- A summary as a value to be printed. -/
def SchemaSummary.json (summary : SchemaSummary) : Json :=
  .record [("name", .text summary.name), ("unit", .text summary.unit),
    ("fields", .list (summary.fields.map FieldSummary.json))]

end CellFilter
