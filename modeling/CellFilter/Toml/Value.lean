import CellFilter.Decimal.Binary

/-!
# Configuration values

The values that a configuration document can hold.  A table is an association list in which every
key occurs once.  A date or a time is kept as its canonical text, since no setting is one.
-/

namespace CellFilter.Toml

/-- A value of a configuration document. -/
inductive Value where
  | text (s : String)
  | integer (n : Int)
  | float (x : Binary64)
  | boolean (b : Bool)
  | dateTime (text : String)
  | array (items : List Value)
  | table (entries : List (String × Value))

/-- The entries of a table with one of them set: in place if the key is there, else at the end. -/
def assign {α : Type} (key : String) (value : α) : List (String × α) → List (String × α)
  | [] => [(key, value)]
  | (k, v) :: rest => if k == key then (key, value) :: rest else (k, v) :: assign key value rest

end CellFilter.Toml
