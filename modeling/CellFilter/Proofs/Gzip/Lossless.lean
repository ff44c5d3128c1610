import CellFilter.Bytes.Lemmas
import CellFilter.Gzip.Member

/-!
# Compression loses nothing

Stored data reads back block by block, and a deflated form is only written where it reads back.

* `readBlocks_storeBlocks`: stored blocks stand for their data.
* `decompress_compress`: what is compressed at any level decompresses to itself.
* `length_compress_le`: how much room little data takes.
-/

namespace CellFilter.Gzip

theorem ofLittleEndian_two {n : Nat} (h : n < 65536) :
    Bytes.ofLittleEndian (Bytes.littleEndian 2 n) = n := by
  rw [Bytes.ofLittleEndian_littleEndian]
  omega

/-- A stored block after its three bits of header. -/
theorem readStored_block {block : Bytes} (h : block.length ≤ 65535) (rest : Bytes)
    (out : Array UInt8) (first : UInt8) : readStored out ⟨first :: (Bytes.littleEndian 2 block.length ++
      Bytes.littleEndian 2 (65535 - block.length) ++ block ++ rest), 3⟩ =
        some (out ++ block, .ofBytes rest) := by
  have hlen := ofLittleEndian_two (n := block.length) (by omega)
  have hcomp := ofLittleEndian_two (n := 65535 - block.length) (by omega)
  simp only [Bytes.littleEndian] at hlen hcomp ⊢
  unfold readStored BitInput.align
  simp only [List.cons_append, List.nil_append, List.drop_succ_cons, List.drop_zero,
    OfNat.ofNat_ne_zero, if_false, hlen, hcomp]
  simp

/-- The header of a stored block. -/
theorem readBlocks_header (steps : Nat) (out : Array UInt8) (rest : Bytes) :
    readBlocks (steps + 1) out (.ofBytes (1 :: rest)) = readStored out ⟨1 :: rest, 3⟩ ∧
      readBlocks (steps + 1) out (.ofBytes (0 :: rest)) =
        readStored out ⟨0 :: rest, 3⟩ >>= fun left => readBlocks steps left.1 left.2 := by
  constructor
  · rw [readBlocks]
    simp only [BitInput.ofBytes, BitInput.bit, BitInput.number, readBlock]
    cases h : readStored out ⟨1 :: rest, 3⟩ <;> simp [h]
  · rw [readBlocks]
    simp [BitInput.ofBytes, BitInput.bit, BitInput.number, readBlock]

/-- **Stored blocks** stand for their data. -/
theorem readBlocks_storeBlocks : ∀ (fuel steps : Nat) (data rest : Bytes) (out : Array UInt8),
    data.length < fuel → fuel ≤ steps →
      readBlocks steps out (.ofBytes (storeBlocks fuel data ++ rest)) =
        some (out ++ data, .ofBytes rest)
  | 0, _, _, _, _, h, _ => absurd h (Nat.not_lt_zero _)
  | fuel + 1, 0, _, _, _, _, hs => absurd hs (Nat.not_succ_le_zero _)
  | fuel + 1, steps + 1, data, rest, out, h, hs => by
    have hblock : (data.take 65535).length ≤ 65535 := List.length_take_le _ _
    rw [storeBlocks]
    by_cases hlast : (data.drop 65535).isEmpty = true
    · have hdata : data.take 65535 = data := by
        rw [List.take_of_length_le]
        simpa using hlast
      simp only [hlast, if_true, List.cons_append]
      rw [(readBlocks_header steps out _).1, readStored_block hblock, hdata]
    · simp only [hlast, if_false, List.cons_append, List.append_assoc, Bool.false_eq_true]
      have hmore := readStored_block hblock (storeBlocks fuel (data.drop 65535) ++ rest) out 0
      simp only [List.append_assoc] at hmore
      rw [(readBlocks_header steps out _).2, hmore]
      have hlong : 65535 < data.length := by simpa using hlast
      have ih := readBlocks_storeBlocks fuel steps (data.drop 65535) rest
        (out ++ data.take 65535) (by rw [List.length_drop]; omega) (by omega)
      show readBlocks steps _ _ = _
      have hjoin : out ++ data.take 65535 ++ data.drop 65535 = out ++ data :=
        Array.ext' (by simp [List.append_assoc])
      rw [ih, hjoin]

/-! ## Members -/

theorem length_le_storeBlocks : ∀ (fuel : Nat) (data : Bytes), data.length < fuel →
    data.length ≤ (storeBlocks fuel data).length
  | 0, _, h => absurd h (Nat.not_lt_zero _)
  | fuel + 1, data, h => by
    have hcut := congrArg List.length (List.take_append_drop 65535 data)
    rw [List.length_append] at hcut
    rw [storeBlocks]
    split_ifs with hlast
    · have hnone : (data.drop 65535).length = 0 := by
        rw [List.isEmpty_iff.mp hlast, List.length_nil]
      simp only [List.length_append, List.length_cons]
      omega
    · have hlong : 65535 < data.length := by simpa using hlast
      have ih := length_le_storeBlocks fuel (data.drop 65535) (by rw [List.length_drop]; omega)
      simp only [List.length_append, List.length_cons]
      omega

theorem inflate_store (data rest : Bytes) : inflate (store data ++ rest) = some (data, rest) := by
  have hsteps : data.length + 1 ≤ 8 * (storeBlocks (data.length + 1) data ++ rest).length + 1 := by
    have hlong := length_le_storeBlocks (data.length + 1) data (Nat.lt_succ_self _)
    rw [List.length_append]
    omega
  rw [inflate, store, readBlocks_storeBlocks (data.length + 1) _ data rest #[]
    (Nat.lt_succ_self _) hsteps]
  simp [BitInput.ofBytes, BitInput.align]

theorem dropHeader_header (level : Nat) (rest : Bytes) :
    dropHeader (header level ++ rest) = some rest := by
  rfl

theorem unpack?_storedMember (level : Nat) (data : Bytes) :
    unpack? (storedMember level data) = some data := by
  have htrailer : (trailer data).take 8 = trailer data :=
    List.take_of_length_le (by simp [trailer])
  rw [unpack?, storedMember, List.append_assoc, dropHeader_header, Option.bind_eq_bind,
    Option.bind_some, inflate_store]
  simp [htrailer]

/-- **Compression** at any level loses nothing. -/
theorem decompress_compress (data : Bytes) (level : Nat) :
    decompress (compress data level) = .ok data := by
  have hmember : ∀ level rest, unpack? (header level ++ rest) = some data →
      decompress (header level ++ rest) = .ok data := by
    intro level rest h
    rw [decompress, h]
    rfl
  have hstored : decompress (storedMember level data) = .ok data := by
    have h := unpack?_storedMember level data
    rw [storedMember, List.append_assoc] at h ⊢
    exact hmember level _ h
  unfold compress
  dsimp only
  split_ifs with hzero hpacked
  · exact hstored
  · have h := hpacked.2
    rw [deflatedMember, List.append_assoc] at h ⊢
    exact hmember (min level 9) _ h
  · exact hstored

/-! ## Room -/

/-- What fits into one stored block takes little more room than itself. -/
theorem length_storedMember {data : Bytes} (h : data.length ≤ 65535) (level : Nat) :
    (storedMember level data).length = data.length + 23 := by
  have hall : data.take 65535 = data := List.take_of_length_le h
  have hlast : (data.drop 65535).isEmpty = true := by simpa using h
  have hstore : (store data).length = data.length + 5 := by
    rw [store, storeBlocks]
    simp only [hall, hlast, if_true, List.length_append, List.length_cons,
      Bytes.littleEndian_length]
    omega
  simp only [storedMember, header, trailer, List.length_append, List.length_cons, List.length_nil,
    hstore, Bytes.littleEndian_length]
  omega

theorem length_compress_le {data : Bytes} (h : data.length ≤ 65535) (level : Nat) :
    (compress data level).length ≤ data.length + 23 := by
  rw [← length_storedMember h level]
  unfold compress
  dsimp only
  split_ifs with hlevel hshort
  · exact le_rfl
  · exact Nat.le_of_lt hshort.1
  · exact le_rfl

end CellFilter.Gzip
