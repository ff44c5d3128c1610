import CellFilter.Toml.Number
import CellFilter.Toml.Table
import CellFilter.Toml.Text

/-!
# Reading documents

A document is read line by line into statements, and the statements into one table.  Arrays may
spread over many lines, tables in braces may not.  Values are nested to a bounded depth.
-/

namespace CellFilter.Toml

open Scan

/-- An array, its elements read by `element`. -/
def array (element : Scan Value) : Scan Value := do
  expect "["
  let items ← many do
    spacing
    if (← peek) == some ']' then return none
    else
      let item ← element
      spacing
      if ← accept "," then return some item
      else if (← peek) == some ']' then return some item
      else fail
  spacing
  expect "]"
  return .array items

/-- A key and its value. -/
def entry (element : Scan Value) : Scan (List String × Value) := do
  let path ← Text.dottedKey
  expect "="
  blanks
  return (path, ← element)

/-- A table in braces. -/
def inlineTable (element : Scan Value) : Scan Value := do
  expect "\x7b"
  blanks
  let entries ←
    if (← peek) == some '\x7d' then pure []
    else do
      let first ← entry element
      blanks
      let others ← many do
        if ← accept "," then
          let e ← entry element
          blanks
          return some e
        else return none
      pure (first :: others)
  expect "\x7d"
  let built ← ofOption (Node.build [] [] (entries.map fun e => .entry e.1 e.2))
  return .table (Node.toValues built)

/-- A run of characters that is a bare value, a date and a time of day with one blank between them
included. -/
def bare : Scan Value := do
  let run ← takeWhile Bare.isBare
  let cs ← get
  let later := (cs.drop 1).takeWhile Bare.isBare
  if Bare.isDate run && cs.head? == some ' ' && !later.isEmpty then
    set (cs.drop (later.length + 1))
    ofOption (Bare.value? (run ++ ' ' :: later))
  else ofOption (Bare.value? run)

/-- A value; arrays and tables in it are nested less than `depth` times. -/
def value : (depth : Nat) → Scan Value
  | 0 => fail
  | depth + 1 => do
    match ← peek with
    | some '"' => return .text (← Text.any)
    | some '\'' => return .text (← Text.any)
    | some '[' => if depth = 0 then fail else array (value depth)
    | some '\x7b' => if depth = 0 then fail else inlineTable (value depth)
    | _ => bare

/-- The bound on the nesting of values. -/
def maxDepth : Nat := 80

/-- A header. -/
def header : Scan Statement := do
  if ← accept "[[" then
    let path ← Text.dottedKey
    expect "]]"
    return .occurrence path
  else
    expect "["
    let path ← Text.dottedKey
    expect "]"
    return .table path

/-- What stands on a line, if it is not empty. -/
def line : Scan (Option Statement) := do
  blanks
  let statement ← match ← peek with
    | none => pure none
    | some '#' => pure none
    | some '\n' => pure none
    | some '\r' => pure none
    | some '[' => some <$> header
    | some _ => do
      let (path, v) ← entry (value maxDepth)
      pure (some (.entry path v))
  lineEnd
  return statement

/-- All lines of a document. -/
def lines : Scan (List Statement) := do
  let found ← many do
    if (← get).isEmpty then return none else return some (← line)
  return found.filterMap id

/-- The table that a document describes; a byte order mark may stand in front. -/
def read? (text : String) : Option (List (String × Value)) := do
  let cs := text.toList
  let cs := if cs.head? == some '\ufeff' then cs.drop 1 else cs
  let (statements, _) ← lines cs
  let root ← Node.build [] [] statements
  return Node.toValues root

end CellFilter.Toml
