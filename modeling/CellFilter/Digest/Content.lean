import CellFilter.Digest.Sha256
import CellFilter.Digest.Xxh3

/-!
# Content hashes and bundle digests

A content hash names a payload inside caches and filters.  A bundle digest tells sequences of
descriptor resources apart: every resource counts with its length in front of it, so that no two
sequences are digested as the same bytes.
-/

namespace CellFilter

/-- The hash by which a payload is known. -/
structure ContentHash where
  value : BitVec 128
  deriving DecidableEq, Repr

namespace ContentHash

/-- The hash of a payload. -/
def of (payload : Bytes) : ContentHash := ⟨.ofNat 128 (Xxh3.of payload)⟩

/-- The sixteen bytes of a hash, most significant first. -/
def bytes (hash : ContentHash) : Bytes := Bytes.bigEndian 16 hash.value.toNat

/-- A hash as 32 hexadecimal digits. -/
def text (hash : ContentHash) : String := hash.bytes.hex

end ContentHash

namespace Bundle

/-- The bytes of which the digest is taken: each resource after its length in eight bytes. -/
def framed (resources : List Bytes) : Bytes :=
  resources.flatMap fun resource => Bytes.bigEndian 8 resource.length ++ resource

/-- The digest of a sequence of resources, in hexadecimal digits. -/
def digest (resources : List Bytes) : String := (Sha256.of (framed resources)).hex

end Bundle

end CellFilter
