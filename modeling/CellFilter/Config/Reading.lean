import CellFilter.Config.Basic
import CellFilter.Config.Layer
import CellFilter.Decimal.Shortest

/-!
# Reading settings

A setting may be given by values of several kinds: a number also as a text, a truth value or a
fraction to be rounded, and a text also as a number or a truth value.  What is not set has its
default, and what is set but unknown does not count.
-/

namespace CellFilter.Config

open Toml (Value)

/-- The whole number nearest to a magnitude, halves away from zero. -/
def roundAway (significand : Nat) (exponent : Int) : Nat :=
  if 0 ≤ exponent then significand <<< exponent.toNat
  else
    let den := 1 <<< (-exponent).toNat
    (2 * significand + den) / (2 * den)

/-- The number of 64 bits without sign nearest to a double; NaN counts as zero. -/
def roundDouble (x : Binary64) : Nat :=
  let limit := UInt64.size - 1
  match x.magnitude with
  | .nan => 0
  | .infinite => if x.isNegative then 0 else limit
  | .finite m e => if x.isNegative then 0 else min (roundAway m e) limit

/-- The number of a value, at most `limit`. -/
def number? (limit : Nat) (value : Value) : Option Nat := do
  let n ← match value with
    | .integer n => if 0 ≤ n then some n.toNat else none
    | .boolean b => some (if b then 1 else 0)
    | .float x => some (roundDouble x)
    | .text s =>
      let word := LetterCase.lowercase s
      if ["true", "on", "yes"].contains word then some 1
      else if ["false", "off", "no"].contains word then some 0
      else (Decimal.uint64? s).map UInt64.toNat
    | .dateTime _ => none
    | .array _ => none
    | .table _ => none
  if n ≤ limit then some n else none

/-- Numbers in settings are written without an exponent, and whole ones without a fraction. -/
def numberStyle : Decimal.NumberStyle where
  leastPoint := -2000
  greatestPoint := 2000
  mark := "e"
  wholeFraction := false
  exponentFraction := false
  nan := "NaN"
  infinity := "inf"

/-- The text of a value. -/
def text? : Value → Option String
  | .text s => some s
  | .integer n => some (toString n)
  | .boolean b => some (if b then "true" else "false")
  | .float x => some (x.render numberStyle)
  | .dateTime s => some s
  | .array _ => none
  | .table _ => none

/-- The texts of an array. -/
def texts? : Value → Option (List String)
  | .array items => items.mapM text?
  | _ => none

/-- The value of a key, read by `reader`, or the default of a key that is not set. -/
def setting {α : Type} (settings : Settings) (key : String) (reader : Value → Option α)
    (default : α) : Option α :=
  match settings.lookup key with
  | some value => reader value
  | none => some default

/-- The settings of a section with the given keys; an array gives them in that order. -/
def sectionOf? (keys : List String) : Value → Option Settings
  | .table entries => some entries
  | .array items => some (keys.zip items)
  | _ => none

/-- The bounds of the caches from their section. -/
def cacheOf? (value : Value) : Option CacheConfig := do
  let settings ← sectionOf? ["schema_capacity", "payload_capacity", "time_to_idle_secs"] value
  let limit := UInt64.size - 1
  let standard : CacheConfig := {}
  return {
    schemaCapacity := ← setting settings "schema_capacity" (number? limit) standard.schemaCapacity
    payloadCapacity :=
      ← setting settings "payload_capacity" (number? limit) standard.payloadCapacity
    idleSeconds? :=
      ← setting settings "time_to_idle_secs" (fun v => (number? limit v).map some) none }

/-- The places of descriptor resources from their section. -/
def discoveryOf? (value : Value) : Option DiscoveryConfig := do
  let settings ← sectionOf? ["roots", "pattern"] value
  let standard : DiscoveryConfig := {}
  return {
    roots := ← setting settings "roots" texts? standard.roots
    pattern := ← setting settings "pattern" text? standard.pattern }

/-- The way of encoding from its section. -/
def codecOf? (value : Value) : Option CodecConfig := do
  let settings ← sectionOf? ["compression_level"] value
  let standard : CodecConfig := {}
  return {
    compressionLevel :=
      ← setting settings "compression_level" (number? (UInt32.size - 1)) standard.compressionLevel }

/-- The configuration that settings describe. -/
def ofSettings? (settings : Settings) : Option Config := do
  return {
    cache := ← setting settings "cache" cacheOf? {}
    discovery := ← setting settings "discovery" discoveryOf? {}
    codec := ← setting settings "codec" codecOf? {} }

end CellFilter.Config
