import CellFilter.Bytes.Lemmas
import CellFilter.Digest.Content

/-!
# What a bundle digest tells apart

The digest of a bundle is that of one byte string, in which every resource stands behind its length in
eight bytes.  A resource may hold anything, what looks like lengths and other resources included.  Read
from the front, a length says where its resource ends and the next length begins, so that such a byte
string comes from one sequence of resources only.

* `Bundle.framed_cons_prefix_iff`: the first resource of two byte strings.
* `Bundle.framed_prefix_iff`: **one byte string begins with another** just if the resources do.
* `Bytes.ofHex?_hex`: hexadecimal text reads back.
* `Bundle.digest_tells_apart`: **equal digests** are those of equal sequences or a collision.
-/

namespace CellFilter

/-! ## Hexadecimal text -/

namespace Bytes

theorem hexValue?_hexDigit : ∀ n < 16, hexValue? (hexDigit n) = some n := by decide

/-- The digits of a byte string read back. -/
theorem ofHexDigits?_digits : ∀ bytes : Bytes,
    ofHexDigits? (bytes.flatMap fun b => [hexDigit (b.toNat / 16), hexDigit (b.toNat % 16)]) =
      some bytes
  | [] => rfl
  | b :: bytes => by
    have hhigh : b.toNat / 16 < 16 := by
      have hb := b.toNat_lt
      omega
    have hlow : b.toNat % 16 < 16 := Nat.mod_lt _ (by decide)
    have hbyte : (16 * (b.toNat / 16) + b.toNat % 16).toUInt8 = b := by
      rw [Nat.div_add_mod]
      exact UInt8.ofNat_toNat
    rw [List.flatMap_cons, List.cons_append, List.singleton_append, ofHexDigits?,
      hexValue?_hexDigit _ hhigh, hexValue?_hexDigit _ hlow, ofHexDigits?_digits bytes]
    show some ((16 * (b.toNat / 16) + b.toNat % 16).toUInt8 :: bytes) = _
    rw [hbyte]

/-- **Hexadecimal text** reads back. -/
theorem ofHex?_hex (bytes : Bytes) : ofHex? bytes.hex = some bytes := by
  rw [ofHex?, hex, String.toList_ofList, ofHexDigits?_digits]

theorem hex_inj {a b : Bytes} : a.hex = b.hex ↔ a = b := by
  refine ⟨fun h => ?_, congrArg hex⟩
  have hsome := congrArg ofHex? h
  rw [ofHex?_hex, ofHex?_hex] at hsome
  exact Option.some.inj hsome

/-- Numbers that fit a width are told apart by their bytes. -/
theorem bigEndian_inj {width m n : Nat} (hm : m < 256 ^ width) (hn : n < 256 ^ width) :
    bigEndian width m = bigEndian width n ↔ m = n := by
  refine ⟨fun h => ?_, congrArg (bigEndian width)⟩
  have hread := congrArg ofBigEndian h
  rwa [ofBigEndian_bigEndian hm, ofBigEndian_bigEndian hn] at hread

end Bytes

/-- Two different byte strings with the same digest. -/
def Sha256.Collision (a b : Bytes) : Prop := a ≠ b ∧ of a = of b

/-! ## Taking a bundle apart -/

namespace Bundle

/-- Resources whose lengths can be written in eight bytes. -/
def Sized (resources : List Bytes) : Prop := ∀ r ∈ resources, r.length < UInt64.size

theorem Sized.head {r : Bytes} {rs : List Bytes} (h : Sized (r :: rs)) : r.length < UInt64.size :=
  h r List.mem_cons_self

theorem Sized.tail {r : Bytes} {rs : List Bytes} (h : Sized (r :: rs)) : Sized rs :=
  fun q hq => h q (List.mem_cons_of_mem r hq)

theorem framed_cons (r : Bytes) (rs : List Bytes) :
    framed (r :: rs) = Bytes.bigEndian 8 r.length ++ (r ++ framed rs) := by
  rw [framed, List.flatMap_cons, List.append_assoc]
  rfl

theorem framed_cons_ne_nil (r : Bytes) (rs : List Bytes) : framed (r :: rs) ≠ [] := by
  intro h
  have hlen := congrArg List.length h
  rw [framed_cons, List.length_append, Bytes.bigEndian_length, List.length_nil] at hlen
  omega

variable {r r' : Bytes} {rs rs' : List Bytes}

/-- **The first resource.**  Its length is found in the first eight bytes, and the length says where
it ends. -/
theorem framed_cons_prefix_iff (h : r.length < UInt64.size) (h' : r'.length < UInt64.size) :
    framed (r :: rs) <+: framed (r' :: rs') ↔ r = r' ∧ framed rs <+: framed rs' := by
  rw [framed_cons, framed_cons]
  constructor
  · rintro ⟨more, hmore⟩
    rw [List.append_assoc, List.append_assoc] at hmore
    have hwidth : (Bytes.bigEndian 8 r.length).length = (Bytes.bigEndian 8 r'.length).length := by
      rw [Bytes.bigEndian_length, Bytes.bigEndian_length]
    obtain ⟨hlength, hrest⟩ := List.append_inj hmore hwidth
    obtain ⟨hfirst, hothers⟩ := List.append_inj hrest ((Bytes.bigEndian_inj h h').mp hlength)
    exact ⟨hfirst, more, hothers⟩
  · rintro ⟨rfl, hothers⟩
    rw [List.prefix_append_right_inj, List.prefix_append_right_inj]
    exact hothers

/-- **One byte string begins with another** just if the one sequence of resources begins with the
other. -/
theorem framed_prefix_iff (h : Sized rs) (h' : Sized rs') :
    framed rs <+: framed rs' ↔ rs <+: rs' := by
  induction rs generalizing rs' with
  | nil => exact iff_of_true List.nil_prefix List.nil_prefix
  | cons r rs ih =>
    cases rs' with
    | nil =>
      refine iff_of_false (fun h => ?_) (fun h => ?_)
      · exact framed_cons_ne_nil r rs (List.prefix_nil.mp h)
      · exact List.cons_ne_nil r rs (List.prefix_nil.mp h)
    | cons r' rs' =>
      rw [framed_cons_prefix_iff h.head h'.head, List.cons_prefix_cons, ih h.tail h'.tail]

/-- Different sequences of resources are different byte strings. -/
theorem framed_inj (h : Sized rs) (h' : Sized rs') : framed rs = framed rs' ↔ rs = rs' := by
  refine ⟨fun heq => ?_, congrArg framed⟩
  have hfront : rs <+: rs' := (framed_prefix_iff h h').mp (heq ▸ List.prefix_refl _)
  have hback : rs' <+: rs := (framed_prefix_iff h' h).mp (heq ▸ List.prefix_refl _)
  exact hfront.eq_of_length_le hback.length_le

/-- **Equal digests.**  Two sequences of resources are digested as the same bytes just if they are
equal, resource by resource and in order; and their digests are equal just if the sequences are, or
else their bytes are a collision of the hash. -/
theorem digest_tells_apart (h : Sized rs) (h' : Sized rs') :
    (framed rs = framed rs' ↔ rs = rs') ∧
      (digest rs = digest rs' ↔ rs = rs' ∨ Sha256.Collision (framed rs) (framed rs')) := by
  have hframed := framed_inj h h'
  refine ⟨hframed, ?_⟩
  rw [digest, digest, Bytes.hex_inj, Sha256.Collision, ne_eq, hframed]
  constructor
  · intro heq
    by_cases hsame : rs = rs'
    · exact .inl hsame
    · exact .inr ⟨hsame, heq⟩
  · rintro (rfl | ⟨-, heq⟩)
    · rfl
    · exact heq

/-- A resource that reads like two others with their lengths, in place of these: without the length
in front of it, it would be digested as the same bytes. -/
theorem digest_tells_apart_lookalike :
    Sized [framed [[1, 2], []]] ∧ Sized [[1, 2], []] ∧
      framed [framed [[1, 2], []]] ≠ framed [[1, 2], []] ∧
      (digest [framed [[1, 2], []]] = digest [[1, 2], []] →
        Sha256.Collision (framed [framed [[1, 2], []]]) (framed [[1, 2], []])) := by
  have hone : Sized [framed [[1, 2], []]] := by unfold Sized; decide
  have htwo : Sized [[1, 2], []] := by unfold Sized; decide
  have hne : [framed [[1, 2], []]] ≠ [[1, 2], []] := by decide
  obtain ⟨hframed, hdigest⟩ := digest_tells_apart hone htwo
  exact ⟨hone, htwo, fun h => hne (hframed.mp h), fun h => (hdigest.mp h).resolve_left hne⟩

end Bundle

end CellFilter
