import CellFilter.Predicate.Operand
import CellFilter.Proofs.Wire.Framing

/-!
# Operands read back

A scalar travels in the field of its type, and the field determines the type.

* `FieldKey.decode_encode`: keys of 32 bits.
* `Scalar.decode_encode`: every scalar reads back as it was, floating-point numbers bit by bit.
-/

namespace CellFilter

open Outcome

namespace FieldKey

theorem ofNumber_eq {key : FieldKey} (hnumber : 0 < key.number)
    (h : 8 * key.number + key.wireType.code < UInt32.size) :
    ofNumber (8 * key.number + key.wireType.code) = .ok key := by
  obtain ⟨number, wireType⟩ := key
  have hcode : wireType.code < 8 ∧ WireType.ofCode? wireType.code = some wireType := by
    cases wireType <;> exact ⟨by decide, rfl⟩
  have hmod : (8 * number + wireType.code) % 8 = wireType.code := by omega
  have hdiv : (8 * number + wireType.code) / 8 = number := by omega
  have hsmall : ¬ UInt32.size ≤ 8 * number + wireType.code := Nat.not_le.mpr h
  have hpos : ¬ number = 0 := Nat.pos_iff_ne_zero.mp hnumber
  rw [ofNumber, if_neg hsmall]
  simp only [hmod, hcode.2, hdiv]
  rw [if_neg hpos]

theorem decode_encode {key : FieldKey} (hnumber : 0 < key.number)
    (h : 8 * key.number + key.wireType.code < UInt32.size) (rest : Bytes) :
    decode (encode key ++ rest) = .ok (key, rest) := by
  have hwide : UInt32.size < UInt64.size := by decide
  rw [decode, encode, Varint.decode_encode (by omega)]
  simp only [ofNumber_eq hnumber h]
  rfl

end FieldKey

namespace Record

theorem readVarint_encode {n : Nat} (h : n < UInt64.size) (rest : Bytes) :
    readVarint (Varint.encode n ++ rest) = .ok (n, rest) := by
  rw [readVarint, Varint.decode_encode h]

theorem readExactly_append (bytes rest : Bytes) :
    readExactly bytes.length (bytes ++ rest) = .ok (bytes, rest) := by
  rw [readExactly, if_pos (by simp), List.take_left, List.drop_left]

theorem readExactly_littleEndian (width n : Nat) (rest : Bytes) :
    readExactly width (Bytes.littleEndian width n ++ rest) = .ok (Bytes.littleEndian width n, rest) := by
  have hread := readExactly_append (Bytes.littleEndian width n) rest
  rwa [Bytes.littleEndian_length] at hread

theorem readDelimited_putBytes {bytes : Bytes} (h : bytes.length < UInt64.size) (rest : Bytes) :
    readDelimited (Frame.putBytes bytes ++ rest) = .ok (bytes, rest) := by
  rw [readDelimited, Frame.putBytes, List.append_assoc, readVarint_encode h, ok_bind]
  exact readExactly_append bytes rest

end Record

namespace Scalar

/-- A word of 32 bits is what is left of it after its sign was extended. -/
theorem toInt32_of_extended (n : Int32) : n.toInt64.toUInt64.toNat.toUInt32.toInt32 = n := by
  have hwords : n.toInt64.toUInt64.toNat.toUInt32.toInt32 = n.toInt64.toUInt64.toUInt32.toInt32 := rfl
  rw [hwords, ← Int32.toBitVec_inj]
  show (n.toBitVec.signExtend 64).setWidth 32 = n.toBitVec
  ext i hi
  rw [BitVec.getElem_setWidth, BitVec.getLsbD_signExtend]
  simp only [hi, Nat.lt_trans hi (by decide : 32 < 64), decide_true, Bool.true_and, if_true]
  exact BitVec.getLsbD_eq_getElem hi

theorem readContents_encode {value : Scalar} (h : value.encodeContents.length < UInt64.size)
    (rest : Bytes) : readContents value.type (value.encodeContents ++ rest) = .ok (value, rest) := by
  cases value with
  | string s =>
    have hlen : (Utf8.encode s).length < UInt64.size := by
      simp only [encodeContents, Frame.putText, Frame.putBytes, List.length_append] at h
      omega
    show (Record.readDelimited (Frame.putText s ++ rest) >>= _) = _
    rw [Frame.putText, Record.readDelimited_putBytes hlen, ok_bind]
    simp only [Utf8.decode?_encode]
    rfl
  | int n =>
    show (Record.readVarint (Varint.encode n.toInt64.toUInt64.toNat ++ rest) >>= _) = _
    rw [Record.readVarint_encode (UInt64.toNat_lt _), ok_bind]
    show Except.ok (Scalar.int n.toInt64.toUInt64.toNat.toUInt32.toInt32, rest) = _
    rw [toInt32_of_extended]
  | long n =>
    show (Record.readVarint (Varint.encode n.toUInt64.toNat ++ rest) >>= _) = _
    rw [Record.readVarint_encode (UInt64.toNat_lt _), ok_bind]
    simp
  | float x =>
    have hbits : x.bits.toNat < 256 ^ 4 := UInt32.toNat_lt x.bits
    show (Record.readExactly 4 (Bytes.littleEndian 4 x.bits.toNat ++ rest) >>= _) = _
    rw [Record.readExactly_littleEndian, ok_bind]
    show Except.ok (_, rest) = _
    rw [Bytes.ofLittleEndian_littleEndian, Nat.mod_eq_of_lt hbits]
    simp
  | double x =>
    have hbits : x.bits.toNat < 256 ^ 8 := UInt64.toNat_lt x.bits
    show (Record.readExactly 8 (Bytes.littleEndian 8 x.bits.toNat ++ rest) >>= _) = _
    rw [Record.readExactly_littleEndian, ok_bind]
    show Except.ok (_, rest) = _
    rw [Bytes.ofLittleEndian_littleEndian, Nat.mod_eq_of_lt hbits]
    simp
  | bool b =>
    show (Record.readVarint (Varint.encode b.toNat ++ rest) >>= _) = _
    rw [Record.readVarint_encode (by cases b <;> decide), ok_bind]
    cases b <;> rfl
  | bytes b =>
    have hlen : b.length < UInt64.size := by
      simp only [encodeContents, Frame.putBytes, List.length_append] at h
      omega
    show (Record.readDelimited (Frame.putBytes b ++ rest) >>= _) = _
    rw [Record.readDelimited_putBytes hlen]
    rfl

/-- The field of a type is found by its number, and its key fits 32 bits. -/
theorem find_fieldNumber (type : ScalarType) :
    (types.find? fun t => fieldNumber t == fieldNumber type) = some type ∧ 0 < fieldNumber type ∧
      8 * fieldNumber type + (wireType type).code < UInt32.size := by
  cases type <;> exact ⟨rfl, by decide, by decide⟩

theorem readStep_encode {value : Scalar} (h : value.encode.length < UInt64.size)
    (latest : Option Scalar) (rest : Bytes) :
    readStep latest (value.encode ++ rest) = .ok (some value, rest) := by
  obtain ⟨hfind, hnumber, hkey⟩ := find_fieldNumber value.type
  have hlen : value.encodeContents.length < UInt64.size := by
    rw [encode, List.length_append] at h
    omega
  rw [readStep, encode, List.append_assoc, FieldKey.decode_encode hnumber hkey, ok_bind]
  simp only [hfind, Record.checkWireType, if_true, ok_bind, readContents_encode hlen]
  rfl

/-- **Every scalar** reads back. -/
theorem decode_encode {value : Scalar} (h : value.encode.length < UInt64.size) :
    decode value.encode = .ok value := by
  have hone := readStep_encode h none []
  rw [List.append_nil] at hone
  have hall : consumeAll readStep none value.encode = .ok (some value) := by
    rw [consumeAll]
    cases hbytes : value.encode with
    | nil =>
      have hkey := Varint.encode_ne_nil (8 * fieldNumber value.type + (wireType value.type).code)
      exact absurd (List.append_eq_nil_iff.mp hbytes).1 hkey
    | cons b bytes =>
      rw [hbytes] at hone
      show (readStep none (b :: bytes) >>= _) = _
      rw [hone, ok_bind]
      cases bytes <;> rfl
  rw [decode, hall]
  rfl

end Scalar

end CellFilter
