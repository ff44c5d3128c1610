import CellFilter.Bytes.Lemmas
import CellFilter.Filter.Encoding
import CellFilter.Filter.Evaluator
import CellFilter.Machine.Disk
import CellFilter.Main
import CellFilter.Predicate.Description
import CellFilter.Proofs.Filter.Verdict
import CellFilter.Proofs.Payload.Walk
import CellFilter.Proofs.Schema.Pool
import CellFilter.Proofs.Schema.Imports
import CellFilter.Proofs.Schema.Declared
import CellFilter.Proofs.Schema.Resolution
import CellFilter.Proofs.Gzip.Lossless
import CellFilter.Proofs.Payload.Order
import CellFilter.Proofs.Wire.Framing
import CellFilter.Proofs.Schema.Transfer
import CellFilter.Proofs.Schema.Isomorphism
import CellFilter.Proofs.Payload.Layout
import CellFilter.Proofs.Payload.Reading
import CellFilter.Proofs.Payload.RoundTrip
import CellFilter.Proofs.Predicate.Operand
import CellFilter.Proofs.Text.Lowercase
import CellFilter.Proofs.Filter.Bundling
import CellFilter.Proofs.Predicate.RoundTrip
import CellFilter.Proofs.Filter.RoundTrip
import CellFilter.Proofs.Message.Agreement
import CellFilter.Proofs.Message.Reading
import CellFilter.Proofs.Message.Matching
import CellFilter.Proofs.Filter.Simulation
import CellFilter.Proofs.Filter.Caching
import CellFilter.Proofs.Catalog.Registry
import CellFilter.Proofs.Filter.Shipping
import CellFilter.Proofs.Filter.Addressing
import CellFilter.Proofs.Filter.Compaction
import CellFilter.Proofs.Message.Concatenation
import CellFilter.Schema.Registration
import CellFilter.Proofs.Wire.Forms
import CellFilter.Proofs.Message.Forms
import CellFilter.Proofs.Message.RoundTrip
import CellFilter.Proofs.Payload.Locality
import CellFilter.Proofs.Schema.Registration
import CellFilter.Proofs.Schema.WellFormed
import CellFilter.Proofs.Payload.Nesting
import CellFilter.Proofs.Payload.Chain
import CellFilter.Proofs.Filter.Nesting
import CellFilter.Proofs.Wire.PrefixFree
import CellFilter.Proofs.Predicate.Travel
import CellFilter.Proofs.Payload.Stack
import CellFilter.Proofs.Payload.Writing
import CellFilter.Proofs.Payload.Fixpoint
import CellFilter.Proofs.Schema.Atomicity
import CellFilter.Proofs.Filter.Inline
import CellFilter.Proofs.Cache.Memo
import CellFilter.Catalog.Memo
import CellFilter.Proofs.Text.Order
import CellFilter.Proofs.Catalog.Memo
import CellFilter.Proofs.Catalog.FirstWins
import CellFilter.Proofs.Payload.Sorting
import CellFilter.Proofs.Filter.Scoping
import CellFilter.Proofs.Message.Equality
import CellFilter.Proofs.Message.Modes
import CellFilter.Proofs.Predicate.OwnMessage
import CellFilter.Proofs.Scalar.Words
import CellFilter.Proofs.Scalar.FloatOrder
import CellFilter.Proofs.Path.Names
import CellFilter.Proofs.Path.Unsigned
import CellFilter.Proofs.Path.Mirror
import CellFilter.Proofs.Message.Faults
import CellFilter.Proofs.Message.Invariant
import CellFilter.Proofs.Path.Types
import CellFilter.Proofs.Filter.Settled
import CellFilter.Proofs.Filter.Faults
import CellFilter.Proofs.Gzip.Front
import CellFilter.Proofs.Wire.Trailing
import CellFilter.Proofs.Schema.Escaping
import CellFilter.Proofs.Payload.Ties
import CellFilter.Proofs.Text.Containment
import CellFilter.Proofs.Digest.Bundle
import CellFilter.Proofs.Comparator.Ranges
import CellFilter.Proofs.Schema.Scopes
import CellFilter.Proofs.Wire.Items
