import CellFilter.Proofs.Gzip.Lossless

/-!
# What follows a member

Reading a member looks at no byte behind it.  Each step of inflating takes some bits off the front
and takes the same bits whatever follows; how many steps there may be grows with the input, and more
of them than are needed change nothing.

* `BitInput.extend`: a place with more bytes behind it; `Grown` compares what is read there.
* `inflate_append`: inflating leaves what follows.
* `decompress_append`: a byte string that decompresses does so as well when more bytes follow.
* `decompress_eq_ok_iff`: **what decompresses** is a member with anything behind it.
-/

namespace CellFilter.Gzip

variable {α β : Type} {more : Bytes} {input : BitInput}

/-! ## Bits -/

namespace BitInput

/-- Bits are only used of a byte that is there. -/
def Sound (input : BitInput) : Prop := input.used ≠ 0 → input.rest ≠ []

/-- The same place with more bytes behind what is left. -/
def extend (input : BitInput) (more : Bytes) : BitInput := { input with rest := input.rest ++ more }

@[simp] theorem used_extend : (input.extend more).used = input.used := rfl

@[simp] theorem rest_extend : (input.extend more).rest = input.rest ++ more := rfl

theorem extend_ofBytes (bytes more : Bytes) :
    (ofBytes bytes).extend more = ofBytes (bytes ++ more) :=
  rfl

theorem sound_ofBytes (bytes : Bytes) : (ofBytes bytes).Sound := fun h => absurd rfl h

theorem align_extend (h : input.Sound) : (input.extend more).align = input.align ++ more := by
  obtain ⟨rest, used⟩ := input
  unfold align
  by_cases hused : used = 0
  · simp [hused]
  · cases rest with
    | nil => exact absurd rfl (h hused)
    | cons b rest => simp [hused]

end BitInput

/-- What was read at one place is read as well at another, which has more bytes behind it. -/
def Grown (more : Bytes) (found found' : Option (α × BitInput)) : Prop :=
  ∀ a left, found = some (a, left) → left.Sound ∧ found' = some (a, left.extend more)

namespace Grown

variable {found found' : Option (α × BitInput)}

theorem none : Grown more (none : Option (α × BitInput)) found' := fun _ _ h => by cases h

theorem some (a : α) (h : input.Sound) :
    Grown more (some (a, input)) (some (a, input.extend more)) := by
  intro b left hleft
  cases hleft
  exact ⟨h, rfl⟩

theorem bind (h : Grown more found found') {next next' : α × BitInput → Option (β × BitInput)}
    (hn : ∀ a left, left.Sound → Grown more (next (a, left)) (next' (a, left.extend more))) :
    Grown more (found >>= next) (found' >>= next') := by
  intro b left hb
  obtain ⟨⟨a, middle⟩, ha, hb⟩ := Option.bind_eq_some_iff.mp hb
  obtain ⟨hsound, hfound⟩ := h a middle ha
  obtain ⟨hleft, hnext⟩ := hn a middle hsound b left hb
  exact ⟨hleft, by rw [hfound]; exact hnext⟩

/-- A step that reads nothing. -/
theorem lift (x : Option β) {next next' : β → Option (α × BitInput)}
    (hn : ∀ b, Grown more (next b) (next' b)) : Grown more (x >>= next) (x >>= next') := by
  cases x with
  | none => exact none
  | some b => exact hn b

end Grown

namespace BitInput

theorem bit_grown (h : input.Sound) : Grown more input.bit (input.extend more).bit := by
  obtain ⟨rest, used⟩ := input
  cases rest with
  | nil => exact .none
  | cons b rest =>
    unfold bit
    by_cases hlast : used = 7
    · simp only [extend, List.cons_append, hlast, if_true]
      have hsound : Sound ⟨rest, 0⟩ := fun h => absurd rfl h
      exact .some _ hsound
    · simp only [extend, List.cons_append, hlast, if_false]
      have hsound : Sound ⟨b :: rest, used + 1⟩ := fun _ => List.cons_ne_nil b rest
      exact .some _ hsound

theorem number_grown : ∀ (n : Nat) {input : BitInput}, input.Sound →
    Grown more (number n input) (number n (input.extend more))
  | 0, _, h => .some _ h
  | n + 1, _, h => by
    refine (bit_grown h).bind fun low left h => ?_
    exact (number_grown n h).bind fun high left h => .some _ h

end BitInput

open BitInput

/-! ## Symbols -/

theorem Code.readFrom_grown (symbols : List Nat) : ∀ (counts : List Nat) (word first index : Nat)
    {input : BitInput}, input.Sound →
      Grown more (readFrom symbols word first index counts input)
        (readFrom symbols word first index counts (input.extend more))
  | [], _, _, _, _, _ => .none
  | count :: counts, word, first, index, input, h => by
    refine (bit_grown h).bind fun b left h => ?_
    dsimp only
    split_ifs
    · exact .lift _ fun symbol => .some _ h
    · exact readFrom_grown symbols counts _ _ _ h

theorem Code.read_grown (code : Code) (h : input.Sound) :
    Grown more (code.read input) (code.read (input.extend more)) :=
  readFrom_grown code.symbols code.counts 0 0 0 h

theorem readExtra_grown (table : List (Nat × Nat)) (symbol : Nat) (h : input.Sound) :
    Grown more (readExtra table symbol input) (readExtra table symbol (input.extend more)) := by
  refine .lift _ fun row => ?_
  exact (number_grown row.2 h).bind fun extra left h => .some _ h

/-- The symbols of a block; the steps that are not needed do not matter. -/
theorem readSymbols_grown (code distances : Code) : ∀ {fuel fuel' : Nat} (out : Array UInt8)
    {input : BitInput}, fuel ≤ fuel' → input.Sound →
      Grown more (readSymbols code distances fuel out input)
        (readSymbols code distances fuel' out (input.extend more))
  | 0, _, _, _, _, _ => .none
  | fuel + 1, 0, _, _, hfuel, _ => absurd hfuel (Nat.not_succ_le_zero fuel)
  | fuel + 1, fuel' + 1, out, input, hfuel, h => by
    have hless := Nat.le_of_succ_le_succ hfuel
    refine (code.read_grown h).bind fun symbol left h => ?_
    dsimp only
    split_ifs
    · exact readSymbols_grown code distances _ hless h
    · exact .some _ h
    · refine (readExtra_grown lengthTable _ h).bind fun length left h => ?_
      refine (distances.read_grown h).bind fun symbol left h => ?_
      refine (readExtra_grown distanceTable symbol h).bind fun distance left h => ?_
      exact readSymbols_grown code distances _ hless h

/-! ## Blocks -/

theorem readStored_grown (out : Array UInt8) (h : input.Sound) :
    Grown more (readStored out input) (readStored out (input.extend more)) := by
  unfold readStored
  rw [align_extend h]
  rcases input.align with _ | ⟨a, _ | ⟨b, _ | ⟨c, _ | ⟨d, rest⟩⟩⟩⟩
  iterate 4 exact .none
  dsimp only [List.cons_append]
  by_cases hroom : Bytes.ofLittleEndian [c, d] = 65535 - Bytes.ofLittleEndian [a, b] ∧
      Bytes.ofLittleEndian [a, b] ≤ rest.length
  · have hmore : Bytes.ofLittleEndian [a, b] ≤ (rest ++ more).length := by
      rw [List.length_append]
      omega
    rw [if_pos hroom, if_pos ⟨hroom.1, hmore⟩, List.take_append_of_le_length hroom.2,
      List.drop_append_of_le_length hroom.2, ← extend_ofBytes]
    exact .some _ (sound_ofBytes _)
  · rw [if_neg hroom]
    exact .none

theorem readThrees_grown : ∀ (n : Nat) {input : BitInput}, input.Sound →
    Grown more (readThrees n input) (readThrees n (input.extend more))
  | 0, _, h => .some _ h
  | n + 1, _, h => by
    refine (number_grown 3 h).bind fun first left h => ?_
    exact (readThrees_grown n h).bind fun others left h => .some _ h

theorem readLengths_grown (code : Code) (total : Nat) : ∀ (fuel : Nat) (lengths : List Nat)
    {input : BitInput}, input.Sound →
      Grown more (readLengths code total fuel lengths input)
        (readLengths code total fuel lengths (input.extend more))
  | 0, _, _, _ => .none
  | fuel + 1, lengths, input, h => by
    unfold readLengths
    have hagain : ∀ (length bits least : Nat) {left : BitInput}, left.Sound →
        Grown more (left.number bits >>= fun r => readLengths code total fuel
            (List.replicate (least + r.1) length ++ lengths) r.2)
          ((left.extend more).number bits >>= fun r => readLengths code total fuel
            (List.replicate (least + r.1) length ++ lengths) r.2) := fun length bits least left h =>
      (number_grown bits h).bind fun n left h => readLengths_grown code total fuel _ h
    split_ifs
    · exact .some _ h
    · exact .none
    · refine (code.read_grown h).bind fun symbol left h => ?_
      dsimp only
      split_ifs
      · exact readLengths_grown code total fuel _ h
      · cases lengths with
        | nil => exact .none
        | cons last others => exact hagain last 2 3 h
      · exact hagain 0 3 3 h
      · exact hagain 0 7 11 h

/-- A step after the two codes at the head of a block. -/
theorem readCodes_grown (h : input.Sound)
    {next next' : Code × Code × BitInput → Option (β × BitInput)}
    (hn : ∀ code distances left, left.Sound →
      Grown more (next (code, distances, left)) (next' (code, distances, left.extend more))) :
    Grown more (readCodes input >>= next) (readCodes (input.extend more) >>= next') := by
  unfold readCodes
  simp only [bind_assoc]
  refine (number_grown 5 h).bind fun a left h => ?_
  refine (number_grown 5 h).bind fun b left h => ?_
  refine (number_grown 4 h).bind fun c left h => ?_
  dsimp only
  split_ifs
  · exact .none
  · simp only [bind_assoc]
    refine (readThrees_grown (c + 4) h).bind fun threes left h => ?_
    dsimp only
    split_ifs
    · exact .none
    · simp only [bind_assoc]
      refine (readLengths_grown _ _ _ _ h).bind fun lengths left h => ?_
      dsimp only
      split_ifs
      · exact hn _ _ left h
      · exact .none

theorem readBlock_grown (kind : Nat) (out : Array UInt8) (h : input.Sound) :
    Grown more (readBlock kind out input) (readBlock kind out (input.extend more)) := by
  have hfuel : 8 * input.rest.length + 1 ≤ 8 * (input.extend more).rest.length + 1 := by
    rw [rest_extend, List.length_append]
    omega
  match kind with
  | 0 => exact readStored_grown out h
  | 1 => exact readSymbols_grown fixedCode fixedDistanceCode out hfuel h
  | 2 =>
    refine readCodes_grown h fun code distances left h => ?_
    exact readSymbols_grown code distances out hfuel h
  | _ + 3 => exact .none

/-- Blocks up to the final one; the steps that are not needed do not matter. -/
theorem readBlocks_grown : ∀ {fuel fuel' : Nat} (out : Array UInt8) {input : BitInput},
    fuel ≤ fuel' → input.Sound →
      Grown more (readBlocks fuel out input) (readBlocks fuel' out (input.extend more))
  | 0, _, _, _, _, _ => .none
  | fuel + 1, 0, _, _, hfuel, _ => absurd hfuel (Nat.not_succ_le_zero fuel)
  | fuel + 1, fuel' + 1, out, input, hfuel, h => by
    refine (bit_grown h).bind fun final left h => ?_
    refine (number_grown 2 h).bind fun kind left h => ?_
    refine (readBlock_grown kind out h).bind fun out left h => ?_
    dsimp only
    split_ifs
    · exact .some out h
    · exact readBlocks_grown out (Nat.le_of_succ_le_succ hfuel) h

/-- **Inflating** leaves what follows. -/
theorem inflate_append {bytes data rest : Bytes} (h : inflate bytes = some (data, rest))
    (more : Bytes) : inflate (bytes ++ more) = some (data, rest ++ more) := by
  obtain ⟨⟨out, left⟩, hblocks, h⟩ := Option.bind_eq_some_iff.mp h
  cases h
  have hfuel : 8 * bytes.length + 1 ≤ 8 * (bytes ++ more).length + 1 := by
    rw [List.length_append]
    omega
  have hgrown : Grown more _ _ := readBlocks_grown #[] hfuel (sound_ofBytes bytes)
  obtain ⟨hsound, hmore⟩ := hgrown out left hblocks
  rw [extend_ofBytes] at hmore
  rw [inflate, hmore]
  simp only [Option.bind_eq_bind, Option.bind_some, align_extend hsound]
  rfl

/-! ## Headers -/

theorem dropExtra_append {bytes rest : Bytes} (h : dropExtra bytes = some rest) (more : Bytes) :
    dropExtra (bytes ++ more) = some (rest ++ more) := by
  match bytes, h with
  | a :: b :: bytes, h =>
    simp only [dropExtra, List.cons_append] at h ⊢
    split_ifs at h with hroom
    cases h
    have hmore : Bytes.ofLittleEndian [a, b] ≤ (bytes ++ more).length := by
      rw [List.length_append]
      omega
    rw [if_pos hmore, List.drop_append_of_le_length hroom]

/-- The zero that ends a text ends it whatever follows. -/
theorem dropText_append {bytes rest : Bytes} (h : dropText bytes = some rest) (more : Bytes) :
    dropText (bytes ++ more) = some (rest ++ more) := by
  unfold dropText at h ⊢
  dsimp only at h ⊢
  cases htail : bytes.drop (bytes.takeWhile (· != 0)).length with
  | nil => rw [htail] at h; cases h
  | cons b tail =>
    have hlt : (bytes.takeWhile (· != 0)).length < bytes.length := by
      by_contra hge
      rw [List.drop_of_length_le (Nat.le_of_not_lt hge)] at htail
      cases htail
    rw [List.takeWhile_append, if_neg (Nat.ne_of_lt hlt),
      List.drop_append_of_le_length (Nat.le_of_lt hlt), htail]
    rw [htail] at h
    dsimp only [List.cons_append] at h ⊢
    split_ifs at h ⊢
    cases h
    rfl

theorem dropHeaderCheck_append {whole bytes rest : Bytes}
    (h : dropHeaderCheck whole bytes = some rest) (more : Bytes) :
    dropHeaderCheck (whole ++ more) (bytes ++ more) = some (rest ++ more) := by
  have hheader : (whole ++ more).take ((whole ++ more).length - (bytes ++ more).length) =
      whole.take (whole.length - bytes.length) := by
    rw [List.length_append, List.length_append, Nat.add_sub_add_right,
      List.take_append_of_le_length (Nat.sub_le _ _)]
  unfold dropHeaderCheck at h ⊢
  rw [hheader]
  match bytes, h with
  | a :: b :: tail, h =>
    dsimp only [List.cons_append] at h ⊢
    split_ifs at h ⊢
    cases h
    rfl

/-- A part of a header that is there if a flag says so, and the parts behind it. -/
theorem part_append {part : Bytes → Option Bytes} {next next' : Bytes → Option Bytes} {flag : Bool}
    {bytes rest : Bytes}
    (hpart : ∀ left, part bytes = some left → part (bytes ++ more) = some (left ++ more))
    (hnext : ∀ left, next left = some rest → next' (left ++ more) = some (rest ++ more))
    (h : (if flag then part bytes >>= next else some bytes >>= next) = some rest) :
    (if flag then part (bytes ++ more) >>= next' else some (bytes ++ more) >>= next') =
      some (rest ++ more) := by
  cases flag with
  | true =>
    obtain ⟨left, hleft, h⟩ := Option.bind_eq_some_iff.mp h
    rw [if_pos rfl, hpart left hleft]
    exact hnext left h
  | false => exact hnext bytes h

theorem dropHeader_append {bytes rest : Bytes} (h : dropHeader bytes = some rest) (more : Bytes) :
    dropHeader (bytes ++ more) = some (rest ++ more) := by
  unfold dropHeader at h
  split at h
  · rename_i flags m₁ m₂ m₃ m₄ extra system body
    by_cases hreserved : 32 ≤ flags
    · rw [if_pos hreserved] at h
      cases h
    simp only [if_neg hreserved] at h
    simp only [dropHeader, List.cons_append, if_neg hreserved]
    refine part_append (fun left h => dropExtra_append h more) (fun left h => ?_) h
    refine part_append (fun left h => dropText_append h more) (fun left h => ?_) h
    refine part_append (fun left h => dropText_append h more) (fun left h => ?_) h
    split_ifs at h ⊢
    · exact dropHeaderCheck_append h more
    · cases h
      rfl
  · cases h

/-! ## Members -/

theorem unpack?_append {bytes data : Bytes} (h : unpack? bytes = some data) (more : Bytes) :
    unpack? (bytes ++ more) = some data := by
  obtain ⟨body, hbody, h⟩ := Option.bind_eq_some_iff.mp h
  obtain ⟨⟨data', rest⟩, hinflate, h⟩ := Option.bind_eq_some_iff.mp h
  dsimp only at h
  split_ifs at h with htrailer
  cases h
  have hlen : 8 ≤ rest.length := by
    have := congrArg List.length htrailer
    simp only [List.length_take, trailer, List.length_append, Bytes.littleEndian_length] at this
    omega
  have hmore : (rest ++ more).take 8 = trailer data := by
    rw [List.take_append_of_le_length hlen, htrailer]
  simp only [unpack?, dropHeader_append hbody, inflate_append hinflate, Option.bind_eq_bind,
    Option.bind_some, hmore, if_true]
  rfl

theorem isGzip_append {bytes : Bytes} (h : isGzip bytes = true) (more : Bytes) :
    isGzip (bytes ++ more) = true := by
  match bytes, h with
  | _ :: _ :: _, h => exact h

/-- **A byte string that decompresses** does so as well when more bytes follow. -/
theorem decompress_append {bytes data : Bytes} (h : decompress bytes = .ok data) (more : Bytes) :
    decompress (bytes ++ more) = .ok data := by
  unfold decompress at h ⊢
  split_ifs at h with hgzip
  rw [if_pos (isGzip_append hgzip more)]
  cases hunpack : unpack? bytes with
  | none => rw [hunpack] at h; cases h
  | some data' =>
    rw [hunpack] at h
    cases h
    rw [unpack?_append hunpack]

/-- A byte string that decompresses to the data just when its last byte is there. -/
structure IsMember (member data : Bytes) : Prop where
  whole : decompress member = .ok data
  least : ∀ piece, piece <+: member → piece ≠ member → ∃ e, decompress piece = .error e

/-- **What decompresses** is a member with anything behind it. -/
theorem decompress_eq_ok_iff {bytes data : Bytes} : decompress bytes = .ok data ↔
    ∃ member rest, bytes = member ++ rest ∧ IsMember member data := by
  constructor
  · intro h
    induction hlen : bytes.length using Nat.strong_induction_on generalizing bytes with
    | _ len ih =>
      by_cases hleast : ∃ piece, piece <+: bytes ∧ piece ≠ bytes ∧ ∃ d, decompress piece = .ok d
      · -- the piece in front stands for the same data
        obtain ⟨piece, ⟨tail, rfl⟩, hne, d, hpiece⟩ := hleast
        have hsame := decompress_append hpiece tail
        rw [h] at hsame
        cases hsame
        have hless : piece.length < len := by
          have htail : tail ≠ [] := fun htail => hne (by rw [htail, List.append_nil])
          have hpos := List.length_pos_iff.mpr htail
          rw [List.length_append] at hlen
          omega
        obtain ⟨member, rest, rfl, hmember⟩ := ih _ hless hpiece rfl
        exact ⟨member, rest ++ tail, List.append_assoc _ _ _, hmember⟩
      · refine ⟨bytes, [], (List.append_nil bytes).symm, h, fun piece hpiece hne => ?_⟩
        cases hd : decompress piece with
        | error e => exact ⟨e, rfl⟩
        | ok d => exact absurd ⟨piece, hpiece, hne, d, hd⟩ hleast
  · rintro ⟨member, rest, rfl, hmember⟩
    exact decompress_append hmember.whole rest

end CellFilter.Gzip
