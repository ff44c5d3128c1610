import CellFilter.Bytes.Lemmas
import CellFilter.Proofs.Outcome
import CellFilter.Wire.Reader
import Mathlib.Tactic.Ring

/-!
# What is written is read

Each writer has a reader that takes just its bytes off the front, whatever follows them.

* `Varint.decode_encode`: a variable-length integer of at most 64 bits.
* `Gives`: a reader takes some bytes and then succeeds or fails as told; `Gives.bind` chains readers.
* `Reads`: a reader takes some bytes for a value; `Reads.bind` chains it with others.
* `Ensures`: what everything that a reader yields has in common.
* `reads_varint`, `reads_bytes`, `reads_text` and so on: the items of a frame.
* `length_eq_ok`: a length is no more than what is left behind it.
-/

namespace CellFilter

open Outcome

namespace Varint

/-- So many bytes hold seven bits each, and the last of them one. -/
theorem decodeWithin_encode : ∀ (limit n : Nat) (rest : Bytes), n < 2 * 128 ^ limit →
    decodeWithin (limit + 1) (encode n ++ rest) = some (n, rest)
  | 0, n, rest, h => by
    have hsmall : n < 2 := by simpa using h
    rw [encode, if_pos (by omega)]
    have hn : n.toUInt8.toNat = n := by simp; omega
    have hlt : n.toUInt8 < 128 := by rw [UInt8.lt_iff_toNat_lt, hn]; simpa using by omega
    have hle : ¬ 2 ≤ n.toUInt8 := by
      rw [UInt8.le_iff_toNat_le, hn]
      simpa using hsmall
    simp [decodeWithin, hlt, hle, hn]
  | limit + 1, n, rest, h => by
    rw [encode]
    by_cases hsmall : n < 128
    · have hn : n.toUInt8.toNat = n := by simp; omega
      have hlt : n.toUInt8 < 128 := by rw [UInt8.lt_iff_toNat_lt, hn]; simpa using hsmall
      simp [hsmall, decodeWithin, hlt, hn]
    · have hlow : (n % 128 + 128).toUInt8.toNat = n % 128 + 128 := by simp; omega
      have hge : ¬ (n % 128 + 128).toUInt8 < 128 := by
        rw [UInt8.lt_iff_toNat_lt, hlow]
        simp
      have hquot : n / 128 < 2 * 128 ^ limit := by
        rw [Nat.div_lt_iff_lt_mul (by decide)]
        rw [Nat.pow_succ] at h
        omega
      rw [if_neg hsmall, List.cons_append, decodeWithin, if_neg hge,
        decodeWithin_encode limit (n / 128) rest hquot]
      simp only [Option.bind_eq_bind, Option.bind_some, hlow, Option.pure_def, Option.some.injEq,
        Prod.mk.injEq, and_true]
      omega

/-- **A number of at most 64 bits** reads back. -/
theorem decode_encode {n : Nat} (h : n < UInt64.size) (rest : Bytes) :
    decode (encode n ++ rest) = some (n, rest) :=
  decodeWithin_encode 9 n rest (by simpa [UInt64.size] using h)

theorem encode_ne_nil (n : Nat) : encode n ≠ [] := by
  rw [encode]
  split_ifs <;> simp

/-- Seven bits go into a byte. -/
theorem length_encode_le (n : Nat) : ∀ limit : Nat, n < 128 ^ (limit + 1) →
    (encode n).length ≤ limit + 1 := by
  induction n using encode.induct with
  | case1 n hsmall =>
    intro limit _
    rw [encode, if_pos hsmall]
    exact Nat.le_add_left 1 limit
  | case2 n hlarge ih =>
    intro limit h
    rw [encode, if_neg hlarge, List.length_cons]
    cases limit with
    | zero => omega
    | succ limit =>
      have hquot : n / 128 < 128 ^ (limit + 1) := by
        rw [Nat.div_lt_iff_lt_mul (by decide), ← Nat.pow_succ]
        exact h
      have hrest := ih limit hquot
      omega

end Varint

/-! ## Readers -/

theorem Reader.bind_apply {α β : Type} (reader : Reader α) (next : α → Reader β) (input : Bytes) :
    (reader >>= next) input = reader input >>= fun left => next left.1 left.2 := rfl

/-- The reader takes the bytes with this outcome, whatever follows them. -/
def Gives {α : Type} (reader : Reader α) (bytes : Bytes) (outcome : Except FilterError α) : Prop :=
  ∀ rest, reader (bytes ++ rest) = outcome.map fun a => (a, rest)

/-- The reader takes the bytes for the value, whatever follows them. -/
abbrev Reads {α : Type} (reader : Reader α) (bytes : Bytes) (value : α) : Prop :=
  Gives reader bytes (.ok value)

section

variable {α β : Type} {reader : Reader α} {next : α → Reader β} {bytes more : Bytes} {a : α}
  {x : Except FilterError α} {y : Except FilterError β}

namespace Gives

theorem pure (a : α) : Gives (Pure.pure a) [] (.ok a) := fun _ => rfl

theorem bind {y : α → Except FilterError β} (h : Gives reader bytes x)
    (hn : ∀ a, x = .ok a → Gives (next a) more (y a)) :
    Gives (reader >>= next) (bytes ++ more) (x >>= y) := by
  intro rest
  rw [Reader.bind_apply, List.append_assoc, h]
  cases hx : x with
  | error fault => rfl
  | ok a => exact hn a hx rest

theorem andReturn (h : Gives reader bytes x) (f : α → β) :
    Gives (reader >>= fun a => Pure.pure (f a)) bytes (x.map f) := by
  intro rest
  rw [Reader.bind_apply, h]
  cases x <;> rfl

/-- A step that reads nothing, before other steps. -/
theorem lift {y : α → Except FilterError β} (hn : ∀ a, x = .ok a → Gives (next a) bytes (y a)) :
    Gives (liftM x >>= next) bytes (x >>= y) := by
  intro rest
  cases hx : x with
  | error fault => rfl
  | ok a => exact hn a hx rest

/-- A successful step that reads nothing, before other steps. -/
theorem given (h : x = .ok a) (hn : Gives (next a) bytes y) :
    Gives (liftM x >>= next) bytes y := by
  intro rest
  rw [← hn, h]
  rfl

/-- A reader run on bytes that it takes all. -/
theorem whole (h : Gives reader bytes x) (fault : PayloadFault) :
    Frame.whole reader fault bytes = x := by
  have hall := h []
  rw [List.append_nil] at hall
  rw [Frame.whole, hall]
  cases x <;> rfl

end Gives

namespace Reads

theorem apply (h : Reads reader bytes a) (rest : Bytes) :
    reader (bytes ++ rest) = .ok (a, rest) := h rest

/-- A reader of some bytes, before others. -/
theorem bind (h : Reads reader bytes a) (hn : Gives (next a) more y) :
    Gives (reader >>= next) (bytes ++ more) y := by
  intro rest
  rw [Reader.bind_apply, List.append_assoc, h.apply, ok_bind, hn]

/-- A reader of some bytes, before steps that read nothing. -/
theorem andThen (h : Reads reader bytes a) (hn : Gives (next a) [] y) :
    Gives (reader >>= next) bytes y := by
  have hall := h.bind hn
  rwa [List.append_nil] at hall

end Reads

end

/-- Whatever the reader yields has the property. -/
def Ensures {α : Type} (reader : Reader α) (P : α → Prop) : Prop :=
  ∀ input a rest, reader input = .ok (a, rest) → P a

namespace Ensures

variable {α β : Type} {reader : Reader α} {next : α → Reader β} {P : β → Prop}

theorem pure {b : β} (h : P b) : Ensures (Pure.pure b) P := by
  intro input a rest ha
  cases ha
  exact h

theorem bind {Q : α → Prop} (h : Ensures reader Q) (hn : ∀ a, Q a → Ensures (next a) P) :
    Ensures (reader >>= next) P := by
  intro input b rest hinput
  obtain ⟨⟨a, left⟩, ha, hb⟩ := bind_eq_ok.mp hinput
  exact hn a (h input a left ha) left b rest hb

/-- The last steps decide. -/
theorem last (hn : ∀ a, Ensures (next a) P) : Ensures (reader >>= next) P :=
  bind (Q := fun _ => True) (fun _ _ _ _ => trivial) fun a _ => hn a

theorem whole {reader : Reader β} (h : Ensures reader P) {fault : PayloadFault} {input : Bytes}
    {b : β} (hb : Frame.whole reader fault input = .ok b) : P b := by
  obtain ⟨⟨a, rest⟩, hread, hrest⟩ := bind_eq_ok.mp hb
  dsimp only at hrest
  split_ifs at hrest
  cases hrest
  exact h input _ rest hread

end Ensures

namespace Frame

theorem reads_byte (b : UInt8) : Reads byte (putByte b) b := fun _ => rfl

theorem reads_bool (b : Bool) : Reads bool (putBool b) b := by
  intro rest
  cases b <;> rfl

theorem varint_eq_ok {input rest : Bytes} {n : Nat} :
    varint input = .ok (n, rest) ↔ Varint.decode input = some (n, rest) := by
  unfold varint
  cases Varint.decode input <;> simp

theorem reads_varint {n : Nat} (h : n < UInt64.size) : Reads varint (Varint.encode n) n :=
  fun rest => varint_eq_ok.mpr (Varint.decode_encode h rest)

theorem take_eq_ok {needed : Nat} {input b rest : Bytes} :
    take needed input = .ok (b, rest) ↔ input = b ++ rest ∧ b.length = needed := by
  unfold take
  constructor
  · intro h
    split_ifs at h with hroom
    cases h
    exact ⟨(List.take_append_drop needed input).symm, List.length_take_of_le hroom⟩
  · rintro ⟨rfl, rfl⟩
    rw [if_pos (by rw [List.length_append]; omega), List.take_left, List.drop_left]

/-- **A length** is a variable-length integer and no more than the number of bytes behind it. -/
theorem length_eq_ok {input rest : Bytes} {n : Nat} :
    length input = .ok (n, rest) ↔ varint input = .ok (n, rest) ∧ n ≤ rest.length := by
  rw [length, Reader.bind_apply]
  constructor
  · intro h
    obtain ⟨⟨m, left⟩, hvarint, h⟩ := bind_eq_ok.mp h
    change (if m ≤ left.length then Pure.pure m else _ : Reader Nat) left = _ at h
    split_ifs at h with hroom
    · cases h
      exact ⟨hvarint, hroom⟩
    · cases h
  · rintro ⟨hvarint, hroom⟩
    rw [hvarint, ok_bind]
    show (if n ≤ rest.length then Pure.pure n else _ : Reader Nat) rest = _
    rw [if_pos hroom]
    rfl

/-- **A byte string** is a length and as many bytes. -/
theorem bytes_eq_ok {input b rest : Bytes} :
    bytes input = .ok (b, rest) ↔ varint input = .ok (b.length, b ++ rest) := by
  rw [bytes, Reader.bind_apply]
  constructor
  · intro h
    obtain ⟨⟨n, left⟩, hlength, htake⟩ := bind_eq_ok.mp h
    obtain ⟨rfl, rfl⟩ := take_eq_ok.mp htake
    exact (length_eq_ok.mp hlength).1
  · intro h
    rw [length_eq_ok.mpr ⟨h, by rw [List.length_append]; omega⟩, ok_bind]
    exact take_eq_ok.mpr ⟨rfl, rfl⟩

theorem reads_bytes {b : Bytes} (h : b.length < UInt64.size) : Reads bytes (putBytes b) b := by
  intro rest
  rw [putBytes, List.append_assoc]
  exact bytes_eq_ok.mpr (reads_varint h (b ++ rest))

theorem length_of_putBytes {b : Bytes} (h : (putBytes b).length < UInt64.size) :
    b.length < UInt64.size := by
  rw [putBytes, List.length_append] at h
  omega

theorem reads_putBytes {b : Bytes} (h : (putBytes b).length < UInt64.size) :
    Reads bytes (putBytes b) b := reads_bytes (length_of_putBytes h)

theorem reads_text {s : String} (h : (Utf8.encode s).length < UInt64.size) :
    Reads text (putText s) s := by
  refine (reads_bytes h).andThen ?_
  simp only [Utf8.decode, Utf8.decode?_encode]
  exact .pure s

theorem reads_putText {s : String} (h : (putText s).length < UInt64.size) :
    Reads text (putText s) s := reads_text (length_of_putBytes h)

theorem reads_optional {b : Option Bytes} (h : ∀ c ∈ b, c.length < UInt64.size) :
    Reads optional (putOptional b) b := by
  cases b with
  | none => exact fun _ => rfl
  | some c => exact (reads_bool true).bind ((reads_bytes (h c rfl)).andReturn some)

theorem reads_wide (n : BitVec 128) : Reads wide (putWide n) n := by
  have htake : Reads (take 16) (putWide n) (putWide n) := fun _ =>
    take_eq_ok.mpr ⟨rfl, Bytes.bigEndian_length 16 n.toNat⟩
  have hn : Bytes.ofBigEndian (putWide n) = n.toNat := Bytes.ofBigEndian_bigEndian n.isLt
  have hwide := htake.andReturn fun b => BitVec.ofNat 128 (Bytes.ofBigEndian b)
  rwa [map_ok, hn, BitVec.ofNat_toNat, BitVec.setWidth_eq] at hwide

/-- A count or length in front of at least so many bytes. -/
theorem gives_length {α : Type} {n : Nat} {more : Bytes} {next : Nat → Reader α}
    {x : Except FilterError α} (h : n < UInt64.size) (hn : n ≤ more.length)
    (hnext : Gives (next n) more x) : Gives (length >>= next) (Varint.encode n ++ more) x := by
  intro rest
  have hroom : n ≤ (more ++ rest).length := by
    rw [List.length_append]
    omega
  rw [Reader.bind_apply, List.append_assoc, length_eq_ok.mpr ⟨reads_varint h _, hroom⟩, ok_bind,
    hnext]

/-- A reader run on pieces one after the other. -/
theorem reads_many {α : Type} {reader : Reader α} {put : α → Bytes} :
    ∀ {as : List α}, (∀ a ∈ as, Reads reader (put a) a) →
      Reads (many as.length reader) (as.flatMap put) as
  | [], _ => .pure []
  | a :: as, h => by
    have hrest := reads_many fun b hb => h b (List.mem_cons_of_mem a hb)
    exact (h a List.mem_cons_self).bind (hrest.andReturn (a :: ·))

end Frame

end CellFilter
