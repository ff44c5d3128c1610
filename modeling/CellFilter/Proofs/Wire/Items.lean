import CellFilter.Proofs.Wire.Front

/-!
# Items in a frame

Everything that is framed is a sequence of items of a few kinds, written one behind the other without
anything between them.  A reader that knows the kinds finds the items again and leaves what follows
them.  On other input it may fail, but what it succeeds with it has taken off the front.

* `Frame.Item`, `Frame.Kind`: an item and its kind; `Item.put` writes one and `Kind.read` reads one.
* `Kind.reads_put`, `reads_items`: an item, and a sequence of items, read back.
* `Kind.takesFront_read`: reading takes bytes off the front, whatever the input.
* `items_read_back`: **writing and reading** are inverse.
-/

namespace CellFilter

open Outcome

variable {α β : Type}

/-! ## Readers that do not look ahead -/

theorem TakesFront.andThen {reader : Reader α} {next : α → Reader β} (h : TakesFront reader)
    (hn : ∀ a, TakesFront (next a)) : TakesFront (reader >>= next) :=
  h.bind (g := fun r => next r.1 r.2) hn

theorem TakesFront.andReturn {reader : Reader α} (h : TakesFront reader) (f : α → β) :
    TakesFront (reader >>= fun a => (Pure.pure (f a) : Reader β)) :=
  h.andThen fun a => .pure (f a)

/-- A variable-length integer holds at most 64 bits: nine times seven bits and one more. -/
theorem Varint.decodeWithin_lt : ∀ (limit : Nat) (input : Bytes) (n : Nat) (rest : Bytes),
    decodeWithin (limit + 1) input = some (n, rest) → n < 2 * 128 ^ limit
  | _, [], _, _, h => by cases h
  | 0, x :: input, n, rest, h => by
    rw [decodeWithin] at h
    by_cases hlast : x < 128
    · rw [if_pos hlast] at h
      split_ifs at h with hover
      cases h
      have hsmall : ¬ 2 ≤ x := fun hx => hover ⟨rfl, hx⟩
      rw [UInt8.le_iff_toNat_le] at hsmall
      exact Nat.lt_of_not_le hsmall
    · rw [if_neg hlast] at h
      cases h
  | limit + 1, x :: input, n, rest, h => by
    have hx := x.toNat_lt
    have hpos : 0 < 128 ^ limit := Nat.pow_pos (by decide)
    rw [decodeWithin] at h
    by_cases hlast : x < 128
    · rw [if_pos hlast, if_neg (by simp)] at h
      cases h
      rw [UInt8.lt_iff_toNat_lt] at hlast
      have hbyte : x.toNat < 128 := hlast
      rw [Nat.pow_succ]
      omega
    · rw [if_neg hlast] at h
      obtain ⟨⟨m, tail⟩, htail, h⟩ := Option.bind_eq_some_iff.mp h
      cases h
      have hrest := decodeWithin_lt limit input m _ htail
      rw [Nat.pow_succ]
      omega

theorem Varint.decode_lt {input rest : Bytes} {n : Nat} (h : decode input = some (n, rest)) :
    n < UInt64.size :=
  decodeWithin_lt 9 input n rest h

namespace Frame

/-- The kinds of items. -/
inductive Kind where
  | byte
  | bool
  | varint
  | bytes
  | optional
  | text
  | wide
  deriving DecidableEq

/-- What is written into a frame as one item. -/
inductive Item where
  | byte (b : UInt8)
  | bool (b : Bool)
  | varint (n : Nat)
  | bytes (b : Bytes)
  | optional (b : Option Bytes)
  | text (s : String)
  | wide (n : BitVec 128)

namespace Item

/-- The kind of an item. -/
def kind : Item → Kind
  | byte _ => .byte
  | bool _ => .bool
  | varint _ => .varint
  | bytes _ => .bytes
  | optional _ => .optional
  | text _ => .text
  | wide _ => .wide

/-- The bytes of an item. -/
def put : Item → Bytes
  | byte b => putByte b
  | bool b => putBool b
  | varint n => Varint.encode n
  | bytes b => putBytes b
  | optional b => putOptional b
  | text s => putText s
  | wide n => putWide n

/-- Numbers and lengths have at most 64 bits. -/
def Fits : Item → Prop
  | varint n => n < UInt64.size
  | bytes b => b.length < UInt64.size
  | optional b => ∀ c ∈ b, c.length < UInt64.size
  | text s => (Utf8.encode s).length < UInt64.size
  | _ => True

instance : DecidablePred Fits
  | varint n => inferInstanceAs (Decidable (n < UInt64.size))
  | bytes b => inferInstanceAs (Decidable (b.length < UInt64.size))
  | optional b => inferInstanceAs (Decidable (∀ c ∈ b, c.length < UInt64.size))
  | text s => inferInstanceAs (Decidable ((Utf8.encode s).length < UInt64.size))
  | byte _ => .isTrue trivial
  | bool _ => .isTrue trivial
  | wide _ => .isTrue trivial

end Item

/-- Reads an item of a kind. -/
def Kind.read : Kind → Reader Item
  | .byte => do return .byte (← Frame.byte)
  | .bool => do return .bool (← Frame.bool)
  | .varint => do return .varint (← Frame.varint)
  | .bytes => do return .bytes (← Frame.bytes)
  | .optional => do return .optional (← Frame.optional)
  | .text => do return .text (← Frame.text)
  | .wide => do return .wide (← Frame.wide)

/-- Writes items behind what has been written. -/
def write (written : Bytes) (items : List Item) : Bytes :=
  items.foldl (fun written item => written ++ item.put) written

theorem write_eq (written : Bytes) (items : List Item) :
    write written items = written ++ items.flatMap Item.put := by
  induction items generalizing written with
  | nil => exact (List.append_nil written).symm
  | cons item items ih =>
    show write (written ++ item.put) items = _
    rw [ih, List.flatMap_cons, List.append_assoc]

/-! ## What is written is read -/

/-- **An item** reads back, whatever follows it. -/
theorem Kind.reads_put {item : Item} (h : item.Fits) : Reads item.kind.read item.put item := by
  cases item with
  | byte b => exact (reads_byte b).andReturn Item.byte
  | bool b => exact (reads_bool b).andReturn Item.bool
  | varint n => exact (reads_varint h).andReturn Item.varint
  | bytes b => exact (reads_bytes h).andReturn Item.bytes
  | optional b => exact (reads_optional h).andReturn Item.optional
  | text s => exact (reads_text h).andReturn Item.text
  | wide n => exact (reads_wide n).andReturn Item.wide

/-- **A sequence of items** reads back, whatever follows it. -/
theorem reads_items : ∀ {items : List Item}, (∀ item ∈ items, item.Fits) →
    Reads ((items.map Item.kind).mapM Kind.read) (items.flatMap Item.put) items
  | [], _ => .pure []
  | item :: items, h => by
    rw [List.map_cons, List.mapM_cons, List.flatMap_cons]
    have hrest := reads_items fun other hother => h other (List.mem_cons_of_mem item hother)
    exact (Kind.reads_put (h item List.mem_cons_self)).bind (hrest.andReturn (item :: ·))

/-! ## What is read was at the front -/

theorem takesFront_take (needed : Nat) : TakesFront (take needed) := by
  intro input b rest h
  obtain ⟨hsplit, hlen⟩ := take_eq_ok.mp h
  exact ⟨b, hsplit, fun more => take_eq_ok.mpr ⟨rfl, hlen⟩⟩

theorem takesFront_byte : TakesFront byte := by
  intro input b rest h
  cases input with
  | nil => cases h
  | cons c input =>
    cases h
    exact ⟨[b], rfl, fun _ => rfl⟩

theorem takesFront_bool : TakesFront bool := by
  refine takesFront_byte.andThen fun b => ?_
  split_ifs
  · exact .pure false
  · exact .pure true
  · exact .error _

theorem takesFront_varint : TakesFront varint := by
  intro input n rest h
  obtain ⟨taken, hsplit, htaken⟩ :=
    Varint.decodeWithin_append 10 input n rest (varint_eq_ok.mp h)
  exact ⟨taken, hsplit, fun more => varint_eq_ok.mpr (htaken more)⟩

/-- A length and as many bytes do not look at what follows, though the length alone does. -/
theorem takesFront_bytes : TakesFront bytes := by
  intro input b rest h
  obtain ⟨front, hfront, hagain⟩ := takesFront_varint _ _ _ (bytes_eq_ok.mp h)
  refine ⟨front ++ b, by rw [hfront, List.append_assoc], fun more => ?_⟩
  rw [List.append_assoc]
  exact bytes_eq_ok.mpr (hagain (b ++ more))

theorem takesFront_optional : TakesFront optional := by
  refine takesFront_bool.andThen fun b => ?_
  split_ifs
  · exact takesFront_bytes.andReturn some
  · exact .pure none

theorem takesFront_text : TakesFront text := by
  refine takesFront_bytes.andThen fun b => ?_
  split
  · exact .pure _
  · exact .error _

theorem takesFront_wide : TakesFront wide := (takesFront_take 16).andReturn _

/-- **Reading** an item of any kind takes bytes off the front. -/
theorem Kind.takesFront_read (kind : Kind) : TakesFront kind.read := by
  cases kind with
  | byte => exact takesFront_byte.andReturn Item.byte
  | bool => exact takesFront_bool.andReturn Item.bool
  | varint => exact takesFront_varint.andReturn Item.varint
  | bytes => exact takesFront_bytes.andReturn Item.bytes
  | optional => exact takesFront_optional.andReturn Item.optional
  | text => exact takesFront_text.andReturn Item.text
  | wide => exact takesFront_wide.andReturn Item.wide

/-- There is no item without bytes. -/
theorem Kind.read_nil (kind : Kind) (r : Item × Bytes) : kind.read [] ≠ .ok r := by
  cases kind <;> exact nofun

theorem ensures_varint : Ensures varint (· < UInt64.size) := fun _ _ _ h =>
  Varint.decode_lt (varint_eq_ok.mp h)

theorem ensures_bytes : Ensures bytes fun b => b.length < UInt64.size := fun _ _ _ h =>
  ensures_varint _ _ _ (bytes_eq_ok.mp h)

theorem ensures_optional : Ensures optional fun b => ∀ c ∈ b, c.length < UInt64.size := by
  refine .last fun b => ?_
  split_ifs
  · refine ensures_bytes.bind fun c hc => .pure ?_
    rintro _ ⟨⟩
    exact hc
  · exact .pure nofun

theorem ensures_text : Ensures text fun s => (Utf8.encode s).length < UInt64.size := by
  refine ensures_bytes.bind fun b hb => ?_
  unfold Utf8.decode
  cases hdecode : Utf8.decode? b with
  | some s => exact .pure (by rwa [Utf8.encode_of_decode? hdecode])
  | none => exact nofun

/-- What is read as a kind is of that kind, and fits into a frame again. -/
theorem Kind.ensures_read (kind : Kind) :
    Ensures kind.read fun item => item.kind = kind ∧ item.Fits := by
  cases kind with
  | byte => exact .last fun b => .pure ⟨rfl, trivial⟩
  | bool => exact .last fun b => .pure ⟨rfl, trivial⟩
  | varint => exact ensures_varint.bind fun n hn => .pure ⟨rfl, hn⟩
  | bytes => exact ensures_bytes.bind fun b hb => .pure ⟨rfl, hb⟩
  | optional => exact ensures_optional.bind fun b hb => .pure ⟨rfl, hb⟩
  | text => exact ensures_text.bind fun s hs => .pure ⟨rfl, hs⟩
  | wide => exact .last fun n => .pure ⟨rfl, trivial⟩

/-- **Writing and reading.**  Items that are written one behind the other are read back as they are,
and what follows them is left.  On any input, reading an item fails or takes some bytes off the front,
which it would take as well if something else followed; and a length that is read is no more than the
number of bytes behind it. -/
theorem items_read_back :
    (∀ (items : List Item) (rest : Bytes), (∀ item ∈ items, item.Fits) →
      (items.map Item.kind).mapM Kind.read (write [] items ++ rest) = .ok (items, rest)) ∧
    (∀ (kind : Kind) (input : Bytes), (∃ e, kind.read input = .error e) ∨
      ∃ item taken rest, kind.read input = .ok (item, rest) ∧ input = taken ++ rest ∧ taken ≠ [] ∧
        (∀ more, kind.read (taken ++ more) = .ok (item, more)) ∧ item.kind = kind ∧ item.Fits) ∧
    ∀ input : Bytes, (∃ e, length input = .error e) ∨
      ∃ n taken rest, length input = .ok (n, rest) ∧ input = taken ++ rest ∧
        Varint.decode input = some (n, rest) ∧ n ≤ rest.length := by
  refine ⟨fun items rest h => ?_, fun kind input => ?_, fun input => ?_⟩
  · rw [write_eq, List.nil_append]
    exact reads_items h rest
  · cases hread : kind.read input with
    | error e => exact .inl ⟨e, rfl⟩
    | ok r =>
      obtain ⟨item, rest⟩ := r
      obtain ⟨taken, hsplit, htaken⟩ := kind.takesFront_read input item rest hread
      have hne : taken ≠ [] := by
        rintro rfl
        exact kind.read_nil _ (htaken [])
      exact .inr ⟨item, taken, rest, rfl, hsplit, hne, htaken, kind.ensures_read _ _ _ hread⟩
  · cases hlength : length input with
    | error e => exact .inl ⟨e, rfl⟩
    | ok r =>
      obtain ⟨n, rest⟩ := r
      obtain ⟨hvarint, hroom⟩ := length_eq_ok.mp hlength
      obtain ⟨taken, hsplit, -⟩ := takesFront_varint input n rest hvarint
      exact .inr ⟨n, taken, rest, rfl, hsplit, varint_eq_ok.mp hvarint, hroom⟩

/-- One item of each kind, a number of 64 bits among them, and an optional byte string left out. -/
def mixedItems : List Item :=
  [.byte 7, .bool true, .varint 18446744073709551615, .bytes [0, 255], .text "example.Foo",
    .optional none, .optional (some [97, 98, 99]), .wide (BitVec.allOnes 128)]

/-- They fit, and read back in front of bytes that look like a length. -/
theorem items_read_back_mixed : (∀ item ∈ mixedItems, item.Fits) ∧
    (mixedItems.map Item.kind).mapM Kind.read (write [] mixedItems ++ [5, 1]) =
      .ok (mixedItems, [5, 1]) := by
  have hfits : ∀ item ∈ mixedItems, item.Fits := by decide +kernel
  exact ⟨hfits, items_read_back.1 mixedItems [5, 1] hfits⟩

end Frame

end CellFilter
