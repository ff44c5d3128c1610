import CellFilter.Proofs.Cache.Memo
import CellFilter.Proofs.Gzip.Front
import CellFilter.Proofs.Wire.PrefixFree

/-!
# Bytes behind compressed data

Payloads and groups are compressed, and of compressed data only the member at the front is read.
What is inside the member has to be used up; what stands behind it is never looked at.  So a payload
is accepted with anything behind it, and so is a group, or a group inside of another, that has more
bytes than its member behind its length.

* `unpacked_iff`: what is read after decompressing is read off a member with anything behind it.
* `PredicateGroup.gives_readWithin`: a group in its frame.
* `compressed_then_anything`: **behind the member** everything is accepted, inside of it nothing.
-/

namespace CellFilter

open Outcome

variable {α : Type} {bytes more : Bytes} {a : α}

theorem unpacked_append {f : Bytes → Except FilterError α}
    (h : Gzip.decompress bytes >>= f = .ok a) (more : Bytes) :
    Gzip.decompress (bytes ++ more) >>= f = .ok a := by
  obtain ⟨data, hdata, ha⟩ := bind_eq_ok.mp h
  rw [Gzip.decompress_append hdata more, ok_bind, ha]

/-- **What is read after decompressing** is read off a member, with anything behind it. -/
theorem unpacked_iff {f : Bytes → Except FilterError α} : Gzip.decompress bytes >>= f = .ok a ↔
    ∃ member more data, bytes = member ++ more ∧ Gzip.IsMember member data ∧ f data = .ok a := by
  constructor
  · intro h
    obtain ⟨data, hdata, ha⟩ := bind_eq_ok.mp h
    obtain ⟨member, more, hsplit, hmember⟩ := Gzip.decompress_eq_ok_iff.mp hdata
    exact ⟨member, more, data, hsplit, hmember, ha⟩
  · rintro ⟨member, more, data, hsplit, hmember, ha⟩
    rw [Gzip.decompress_eq_ok_iff.mpr ⟨member, more, hsplit, hmember⟩, ok_bind, ha]

/-! ## Groups -/

namespace PredicateGroup

variable (comparators : ComparatorRegistry)

/-- The group of uncompressed contents; so many levels of groups may be entered inside of it. -/
def ofContents (levels : Nat) (contents : Bytes) : Except FilterError PredicateGroup := do
  let (operator, filters, bundle) ←
    Frame.whole (readBody comparators (readWithin comparators levels)) .trailingInGroup contents
  return .of operator (Filter.distributeAll bundle filters)

/-- A group in its frame. -/
theorem gives_readWithin {compressed : Bytes} (h : compressed.length < UInt64.size)
    (levels : Nat) : Gives (readWithin comparators (levels + 1)) (Frame.putBytes compressed)
      (Gzip.decompress compressed >>= ofContents comparators levels) := by
  rw [readWithin]
  refine (Frame.reads_bytes h).andThen (.lift fun contents _ => ?_)
  exact .lift fun parts _ => fun rest => rfl

theorem steady_readFilter {readGroup : Reader PredicateGroup} (h : Steady readGroup) :
    Steady (readFilter comparators readGroup) := by
  refine Frame.takesFront_byte.steady.bind fun tag => ?_
  split_ifs
  · exact (ColumnPredicate.steady_read comparators).andReturn _
  · exact h.andReturn _
  · exact .throw _

theorem steady_readBundle : Steady Bundle.read := by
  refine Frame.steady_length.bind fun count => ?_
  refine (Frame.steady_many ?_ count).andReturn _
  exact (Frame.takesFront_text.andThen fun name => Frame.takesFront_bytes.andReturn _).steady

/-- The contents of a group have to be used up. -/
theorem prefixFree_ofContents (levels : Nat) :
    PrefixFree (ofContents comparators levels) .trailingInGroup := by
  refine (PrefixFree.whole ?_ .trailingInGroup).bind _
  refine Frame.takesFront_byte.steady.bind fun tag => (Steady.lift _).bind fun operator => ?_
  refine Frame.steady_length.bind fun count => ?_
  refine (Frame.steady_many ?_ count).bind fun filters => steady_readBundle.andReturn _
  exact steady_readFilter comparators (steady_readWithin comparators levels)

end PredicateGroup

open PredicateGroup

/-- **Behind the member** that a payload, or a group at any level, starts with everything is
accepted and changes nothing; inside of the member nothing may be left over. -/
theorem compressed_then_anything (comparators : ComparatorRegistry) :
    (∀ payload s, Payload.decode payload = .ok s →
      ∀ more, Payload.decode (payload ++ more) = .ok s) ∧
    (∀ payload s, Payload.decode payload = .ok s ↔ ∃ member more data, payload = member ++ more ∧
      Gzip.IsMember member data ∧ Payload.schemaOfBody data = .ok s) ∧
    PrefixFree Payload.schemaOfBody .trailingAfterRootUnit ∧
    (∀ levels compressed group rest,
      readWithin comparators levels (Frame.putBytes compressed ++ rest) = .ok (group, rest) →
        ∀ more, (compressed ++ more).length < UInt64.size →
          readWithin comparators levels (Frame.putBytes (compressed ++ more) ++ rest) =
            .ok (group, rest)) ∧
    (∀ compressed group, compressed.length < UInt64.size →
      (decode comparators (Frame.putBytes compressed) = .ok group ↔
        ∃ member more data, compressed = member ++ more ∧ Gzip.IsMember member data ∧
          ofContents comparators maxDepth data = .ok group)) ∧
    ∀ levels, PrefixFree (ofContents comparators levels) .trailingInGroup := by
  refine ⟨fun _ _ h => unpacked_append h, fun _ _ => unpacked_iff,
    (PrefixFree.whole Payload.steady_read _).bind _, ?_, ?_, prefixFree_ofContents comparators⟩
  · intro levels compressed group rest hread more hlen
    have hshort : compressed.length < UInt64.size := by
      rw [List.length_append] at hlen
      omega
    cases levels with
    | zero => cases hread
    | succ levels =>
      rw [gives_readWithin comparators hshort] at hread
      obtain ⟨found, hfound, hpair⟩ := map_eq_ok.mp hread
      cases hpair
      rw [gives_readWithin comparators hlen, unpacked_append hfound more, map_ok]
  · intro compressed group hlen
    rw [decode, (gives_readWithin comparators hlen maxDepth).whole, unpacked_iff]

/-! ### A payload and a group with bytes behind their members -/

/-- The schema that the payload of its pool holds. -/
def baseSchema : Schema := ⟨Schema.basePool, 0, Nat.one_pos⟩

/-- A compressed OR group without filters. -/
def bareGroup : Bytes :=
  [0x1F, 0x8B, 8, 0, 0, 0, 0, 0, 4, 255, 1, 3, 0, 0xFC, 0xFF, 1, 0, 0, 0x25, 0xB3, 0x83, 0xFE, 3, 0,
    0, 0]

theorem decompress_bareGroup : Gzip.decompress bareGroup = .ok [1, 0, 0] := by
  have hbytes : bareGroup = Gzip.compress [1, 0, 0] 0 := by decide +kernel
  rw [hbytes, Gzip.decompress_compress]

theorem unpacked_bareGroup :
    Gzip.decompress bareGroup >>= ofContents .standard maxDepth = .ok (.of .or []) := by
  rw [decompress_bareGroup]
  rfl

theorem readWithin_bareGroup : readWithin .standard 1 (Frame.putBytes bareGroup ++ []) =
    .ok (.of .or [], []) := by
  rw [gives_readWithin .standard (by decide), decompress_bareGroup]
  rfl

/-- A payload and a group whose members are followed by themselves. -/
theorem compressed_then_anything_twice :
    Payload.decode (SchemaCache.basePayload ++ SchemaCache.basePayload) = .ok baseSchema ∧
      readWithin .standard 1 (Frame.putBytes (bareGroup ++ bareGroup) ++ []) =
        .ok (.of .or [], []) ∧
      (∃ member more data, bareGroup ++ bareGroup = member ++ more ∧
        Gzip.IsMember member data ∧ ofContents .standard maxDepth data = .ok (.of .or [])) ∧
      ofContents .standard 0 ([1, 0, 0] ++ [0]) =
        .error (.malformedPayload .trailingInGroup) := by
  obtain ⟨hpayload, -, -, hgroup, hmember, hinside⟩ := compressed_then_anything .standard
  have hlen : (bareGroup ++ bareGroup).length < UInt64.size := by decide
  refine ⟨hpayload _ _ SchemaCache.decode_basePayload _, hgroup 1 _ _ _ readWithin_bareGroup _ hlen,
    (hmember _ _ hlen).mp ?_, (hinside 0 [1, 0, 0] (.of .or []) rfl).1 [0] (by decide)⟩
  rw [decode, (gives_readWithin .standard hlen maxDepth).whole, unpacked_append unpacked_bareGroup]

/-- A payload and a group with one byte behind their members. -/
theorem trailing_byte_accepted : Payload.decode SchemaCache.basePayload = .ok baseSchema ∧
    Payload.decode (SchemaCache.basePayload ++ [0]) = .ok baseSchema ∧
    decode .standard (Frame.putBytes bareGroup) = .ok (.of .or []) ∧
    decode .standard (Frame.putBytes (bareGroup ++ [0])) = .ok (.of .or []) := by
  have hbase := SchemaCache.decode_basePayload
  refine ⟨hbase, unpacked_append hbase [0], ?_, ?_⟩
  · rw [decode, (gives_readWithin .standard (by decide) maxDepth).whole, unpacked_bareGroup]
  · rw [decode, (gives_readWithin .standard (by decide) maxDepth).whole,
      unpacked_append unpacked_bareGroup]

end CellFilter
