import CellFilter.Message.Decode
import CellFilter.Proofs.Predicate.Operand
import CellFilter.Proofs.Wire.Front
import Mathlib.Tactic.Positivity
import Mathlib.Tactic.Zify

/-!
# Forms on the wire

What a number, a field key and a length-delimited byte string may look like on the wire.  A number
need not be written in its shortest form: any split into groups of seven bits will do that takes at
most ten bytes.  Signed numbers become numbers by sign extension or by zigzag.

* `Varint.Form`, `Varint.decode_form`: every form of a number of 64 bits reads back.
* `Varint.form_encode`: the shortest form is one of them.
* `FieldKey.Form`, `FieldKey.decode_form`: keys of field numbers below 2^29.
* `Advances.consumeAll_pieces`: pieces written one after the other are read one after the other.
* `toInt32_twosComplement`, `unzigzag32_zigzag` and so on: signed numbers come back.
-/

namespace CellFilter

open Outcome

/-! ## Variable-length integers -/

namespace Varint

/-- The bytes split a number into groups of seven bits, the lowest first; all but the last have
their top bit set. -/
inductive Groups : Nat → Bytes → Prop where
  | last {b : UInt8} : b < 128 → Groups b.toNat [b]
  | more {b : UInt8} {n : Nat} {rest : Bytes} :
    128 ≤ b → Groups n rest → Groups (b.toNat % 128 + 128 * n) (b :: rest)

/-- The bytes stand for a number of 64 bits. -/
structure Form (n : Nat) (bytes : Bytes) : Prop where
  groups : Groups n bytes
  short : bytes.length ≤ 10
  small : n < UInt64.size

variable {n : Nat} {bytes : Bytes}

theorem Groups.ne_nil (h : Groups n bytes) : bytes ≠ [] := by
  cases h <;> exact List.cons_ne_nil _ _

theorem decodeWithin_groups (h : Groups n bytes) (rest : Bytes) : ∀ limit : Nat,
    bytes.length ≤ limit + 1 → n < 2 * 128 ^ limit →
      decodeWithin (limit + 1) (bytes ++ rest) = some (n, rest) := by
  induction h with
  | @last b hlast =>
    intro limit _ hsmall
    have hover : ¬ (limit = 0 ∧ 2 ≤ b) := by
      rintro ⟨rfl, hb⟩
      rw [UInt8.le_iff_toNat_le] at hb
      exact absurd hsmall (Nat.not_lt.mpr hb)
    rw [List.singleton_append, decodeWithin, if_pos hlast, if_neg hover]
  | @more b n bytes hmore hn ih =>
    intro limit hlen hsmall
    have hb : ¬ b < 128 := UInt8.not_lt.mpr hmore
    have hlow : b.toNat % 128 = b.toNat - 128 := by
      have hless := b.toNat_lt
      rw [UInt8.le_iff_toNat_le] at hmore
      have htop : 128 ≤ b.toNat := hmore
      omega
    cases limit with
    | zero =>
      have hrest := List.length_pos_iff.mpr hn.ne_nil
      rw [List.length_cons] at hlen
      omega
    | succ limit =>
      have hquot : n < 2 * 128 ^ limit := by
        rw [Nat.pow_succ] at hsmall
        omega
      have hread := ih limit (by rw [List.length_cons] at hlen; omega) hquot
      rw [List.cons_append, decodeWithin, if_neg hb, hread, hlow]
      rfl

/-- **Every form** of a number reads back, whatever follows it. -/
theorem decode_form (h : Form n bytes) (rest : Bytes) : decode (bytes ++ rest) = some (n, rest) :=
  decodeWithin_groups h.groups rest 9 h.short (by simpa [UInt64.size] using h.small)

theorem groups_encode (n : Nat) : Groups n (encode n) := by
  induction n using encode.induct with
  | case1 n hsmall =>
    have hn : n.toUInt8.toNat = n := Nat.mod_eq_of_lt (by omega)
    have hlast : n.toUInt8 < 128 := by
      rw [UInt8.lt_iff_toNat_lt, hn]
      exact hsmall
    have hgroup := Groups.last hlast
    rw [hn] at hgroup
    rwa [encode, if_pos hsmall]
  | case2 n hlarge ih =>
    have hn : (n % 128 + 128).toUInt8.toNat = n % 128 + 128 := Nat.mod_eq_of_lt (by omega)
    have hmore : 128 ≤ (n % 128 + 128).toUInt8 := by
      rw [UInt8.le_iff_toNat_le, hn]
      exact Nat.le_add_left 128 (n % 128)
    have hgroup := Groups.more hmore ih
    have hwhole : (n % 128 + 128) % 128 + 128 * (n / 128) = n := by omega
    rw [hn, hwhole] at hgroup
    rwa [encode, if_neg hlarge]

/-- A number of seven bits as one byte. -/
theorem form_byte {b : UInt8} (h : b < 128) : Form b.toNat [b] where
  groups := .last h
  short := Nat.le_add_left 1 9
  small := Nat.lt_trans b.toNat_lt (by decide)

/-- The shortest form is a form. -/
theorem form_encode (h : n < UInt64.size) : Form n (encode n) where
  groups := groups_encode n
  short := length_encode_le n 9 (Nat.lt_trans h (by decide))
  small := h

end Varint

/-! ## Keys and contents -/

/-- The bytes of the key of a field number that the wire allows. -/
structure FieldKey.Form (key : FieldKey) (bytes : Bytes) : Prop where
  positive : 0 < key.number
  bounded : key.number < 2 ^ 29
  written : Varint.Form (8 * key.number + key.wireType.code) bytes

/-- **Every form** of a key reads back. -/
theorem FieldKey.decode_form {key : FieldKey} {bytes : Bytes} (h : key.Form bytes) (rest : Bytes) :
    decode (bytes ++ rest) = .ok (key, rest) := by
  have hcode : key.wireType.code < 8 := by cases key.wireType <;> decide
  have hbounded := h.bounded
  have hkey : 8 * key.number + key.wireType.code < UInt32.size := by
    show _ < 2 ^ 32
    omega
  rw [decode, Varint.decode_form h.written]
  simp only [ofNumber_eq h.positive hkey]
  rfl

/-- A byte string after its length. -/
def Delimited (body bytes : Bytes) : Prop :=
  ∃ length, Varint.Form body.length length ∧ bytes = length ++ body

/-- The contents of a field that nothing is known of but its shape; groups are not among them. -/
inductive Contents : WireType → Bytes → Prop where
  | varint {n : Nat} {bytes : Bytes} : Varint.Form n bytes → Contents .varint bytes
  | word32 {bytes : Bytes} : bytes.length = 4 → Contents .thirtyTwoBit bytes
  | word64 {bytes : Bytes} : bytes.length = 8 → Contents .sixtyFourBit bytes
  | delimited {body bytes : Bytes} : Delimited body bytes → Contents .lengthDelimited bytes

/-! ## One after the other -/

/-- The bytes of things that are written one after the other, each with its own bytes. -/
def joined {α : Type} (pieces : List (α × Bytes)) : Bytes := pieces.flatMap Prod.snd

/-- Pieces are read one after the other if each is read whatever follows it. -/
theorem Advances.consumeAll_pieces {α σ ε : Type} {step : σ → Bytes → Except ε (σ × Bytes)}
    (h : Advances step) (add : σ → α → σ) : ∀ (pieces : List (α × Bytes)) (s : σ),
      (∀ p ∈ pieces, ∀ s rest, step s (p.2 ++ rest) = .ok (add s p.1, rest)) →
        consumeAll step s (joined pieces) = .ok ((pieces.map Prod.fst).foldl add s)
  | [], s, _ => rfl
  | p :: pieces, s, hread => by
    have hfirst := hread p List.mem_cons_self s (joined pieces)
    show consumeAll step s (p.2 ++ joined pieces) = _
    rw [h.consumeAll_of_step hfirst, List.map_cons, List.foldl_cons]
    exact h.consumeAll_pieces add pieces _ fun q hq => hread q (List.mem_cons_of_mem p hq)

/-! ## Signed numbers -/

/-- An integer of either sign as a number of so many bits, its sign extended to all of them. -/
def twosComplement (bits : Nat) (z : Int) : Nat := (z % 2 ^ bits).toNat

/-- An integer of either sign as a number: 0, -1, 1, -2, 2 and so on become 0, 1, 2, 3, 4. -/
def zigzag (z : Int) : Nat := if 0 ≤ z then (2 * z).toNat else (-2 * z - 1).toNat

theorem ofNat_twosComplement {width bits : Nat} (h : width ≤ bits) (x : BitVec width) :
    BitVec.ofNat width (twosComplement bits x.toInt) = x := by
  have hpos : 0 ≤ x.toInt % 2 ^ bits := Int.emod_nonneg _ (by positivity)
  have hdvd : ((2 ^ width : Nat) : Int) ∣ 2 ^ bits := by exact_mod_cast pow_dvd_pow 2 h
  rw [← BitVec.ofInt_natCast, twosComplement, Int.toNat_of_nonneg hpos, ← BitVec.toInt_inj,
    BitVec.toInt_ofInt, ← Int.emod_bmod, Int.emod_emod_of_dvd _ hdvd, Int.emod_bmod,
    BitVec.toInt_bmod_cancel]

/-- The low bit of a zigzag number is the sign, and the other bits are the integer or, for a
negative one, its complement. -/
theorem unzigzag_ofNat_zigzag {width : Nat} (hwidth : width ≠ 0) (x : BitVec width) :
    BitVec.ofNat width (zigzag x.toInt) >>> 1 ^^^
      -(BitVec.ofNat width (zigzag x.toInt) &&& BitVec.ofNat width 1) = x := by
  have hlow := x.le_two_mul_toInt
  have hhigh := x.two_mul_toInt_lt
  have hsmall : zigzag x.toInt < 2 ^ width := by unfold zigzag; split_ifs <;> zify <;> omega
  have hnat : (BitVec.ofNat width (zigzag x.toInt)).toNat = zigzag x.toInt :=
    Nat.mod_eq_of_lt hsmall
  have hone : 1 < 2 ^ width := Nat.one_lt_two_pow hwidth
  have hhalf : BitVec.ofNat width (zigzag x.toInt) >>> 1 =
      BitVec.ofNat width (zigzag x.toInt / 2) := by
    rw [← BitVec.toNat_inj, BitVec.toNat_ushiftRight, hnat, Nat.shiftRight_eq_div_pow, pow_one,
      BitVec.toNat_ofNat, Nat.mod_eq_of_lt (by omega)]
  have hbit : BitVec.ofNat width (zigzag x.toInt) &&& BitVec.ofNat width 1 =
      BitVec.ofNat width (zigzag x.toInt % 2) := by
    have hless : zigzag x.toInt % 2 < 2 ^ width := by omega
    rw [← BitVec.toNat_inj, BitVec.toNat_and, hnat, BitVec.toNat_ofNat, Nat.mod_eq_of_lt hone,
      Nat.and_one_is_mod, BitVec.toNat_ofNat, Nat.mod_eq_of_lt hless]
  rw [hhalf, hbit]
  by_cases hsign : 0 ≤ x.toInt
  · have heven : zigzag x.toInt % 2 = 0 := by rw [zigzag, if_pos hsign]; omega
    have hsame : ((zigzag x.toInt / 2 : Nat) : Int) = x.toInt := by
      rw [zigzag, if_pos hsign]
      omega
    rw [heven, ← BitVec.ofInt_natCast, hsame, BitVec.ofInt_toInt]
    simp
  · have hodd : zigzag x.toInt % 2 = 1 := by rw [zigzag, if_neg hsign]; omega
    have hnot : ((zigzag x.toInt / 2 : Nat) : Int) = -(x.toInt + 1) := by
      rw [zigzag, if_neg hsign]
      omega
    rw [hodd, ← BitVec.ofInt_natCast, hnot, BitVec.neg_one_eq_allOnes, BitVec.xor_allOnes,
      BitVec.ofInt_neg, BitVec.ofInt_add, BitVec.ofInt_toInt, BitVec.not_eq_neg_add,
      BitVec.neg_neg]
    exact BitVec.add_sub_cancel x _

theorem toInt32_twosComplement {bits : Nat} (h : 32 ≤ bits) (n : Int32) :
    (twosComplement bits n.toInt).toUInt32.toInt32 = n := by
  rw [← Int32.toBitVec_inj]
  exact ofNat_twosComplement h n.toBitVec

theorem toInt64_twosComplement {bits : Nat} (h : 64 ≤ bits) (n : Int64) :
    (twosComplement bits n.toInt).toUInt64.toInt64 = n := by
  rw [← Int64.toBitVec_inj]
  exact ofNat_twosComplement h n.toBitVec

theorem unzigzag32_zigzag (n : Int32) : Message.unzigzag32 (zigzag n.toInt).toUInt32 = n := by
  rw [← Int32.toBitVec_inj]
  exact unzigzag_ofNat_zigzag (by decide) n.toBitVec

theorem unzigzag64_zigzag (n : Int64) : Message.unzigzag64 (zigzag n.toInt).toUInt64 = n := by
  rw [← Int64.toBitVec_inj]
  exact unzigzag_ofNat_zigzag (by decide) n.toBitVec

end CellFilter
