import CellFilter.Toml.Printer

/-!
# Configuration

How many schemas and payloads are kept and for how long, where descriptor resources are found, and
how strongly payloads are compressed.
-/

namespace CellFilter

/-- The bounds of the caches. -/
structure CacheConfig where
  schemaCapacity : Nat := 1024
  payloadCapacity : Nat := 1024
  /-- Entries that were not used for so many seconds are dropped. -/
  idleSeconds? : Option Nat := none

/-- Where descriptor resources are found. -/
structure DiscoveryConfig where
  roots : List String := ["."]
  pattern : String := "^\\w+\\.desc$"

/-- How payloads are encoded. -/
structure CodecConfig where
  compressionLevel : Nat := 6

/-- The whole configuration. -/
structure Config where
  cache : CacheConfig := {}
  discovery : DiscoveryConfig := {}
  codec : CodecConfig := {}

/-- Why a configuration has no written form.  Whole numbers in a document have 64 bits with a
sign. -/
inductive Unwritable where
  | tooGreat
  deriving DecidableEq, Repr

/-- The wording of the reason. -/
def Unwritable.message : Unwritable → String
  | .tooGreat => "out-of-range value for u64 type"

namespace Config

/-- The written form of a number. -/
def showNumber (n : Nat) : Except Unwritable String :=
  if (n : Int) ≤ Int64.maxValue.toInt then .ok (toString n) else .error .tooGreat

/-- The written form of a configuration. -/
def render (config : Config) : Except Unwritable String := do
  let schemas ← showNumber config.cache.schemaCapacity
  let payloads ← showNumber config.cache.payloadCapacity
  let idle ← config.cache.idleSeconds?.toList.mapM showNumber
  let level ← showNumber config.codec.compressionLevel
  return Toml.showSections
    [("cache", [("schema_capacity", schemas), ("payload_capacity", payloads)] ++
      idle.map fun n => ("time_to_idle_secs", n)),
     ("discovery", [("roots", Toml.showTexts config.discovery.roots),
      ("pattern", Toml.showText config.discovery.pattern)]),
     ("codec", [("compression_level", level)])]

end Config

end CellFilter
