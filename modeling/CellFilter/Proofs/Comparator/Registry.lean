import CellFilter.Comparator
import CellFilter.Proofs.Lookup
import CellFilter.Proofs.Outcome
import CellFilter.Proofs.Text.Lowercase

/-!
# Comparators built anew

A comparator travels as the name of its kind and its state, and what arrives is built from these by
whatever is registered under the name.  For the built-in kinds this is the same comparator again.
Of the kinds that a caller registers it is asked that what is built can be built once more.

* `Comparator.Standard`: comparators of the built-in kinds, as they are made.
* `ComparatorRegistry.build_standard`: such a comparator is built anew from its own state.
* `ComparatorRegistry.Rebuilds`, `ComparatorRegistry.Stable`: registries that build a comparator once
  more, and registries that do so with whatever they build.
* `ComparatorRegistry.Stable.register`: a kind of a caller beside others.
* `ComparatorRegistry.BuiltIn`: registries without such kinds.
-/

namespace CellFilter

open Outcome

/-- The comparators of the built-in kinds that can be made: a substring is in lower case, and a
pattern is what its text says. -/
inductive Comparator.Standard : Comparator → Prop
  | binary (value : Bytes) : Standard (.binary value)
  | binaryPrefix (value : Bytes) : Standard (.binaryPrefix value)
  | substring (text : String) : Standard (.ofSubstring text)
  | pattern {text : String} {comparator : Comparator} : Comparator.ofPattern text = .ok comparator →
      Standard comparator

theorem Comparator.ofPattern_eq_ok {text : String} {c : Comparator} (h : ofPattern text = .ok c) :
    ∃ expr, c = .pattern text expr := by
  unfold ofPattern at h
  cases hparse : Pattern.Expr.parse? text with
  | none => rw [hparse] at h; cases h
  | some expr => rw [hparse] at h; cases h; exact ⟨expr, rfl⟩

theorem Comparator.Standard.exists_kind {c : Comparator} (h : c.Standard) :
    ∃ kind : ComparatorKind, c.kind = kind.name := by
  cases h with
  | binary value => exact ⟨.binary, rfl⟩
  | binaryPrefix value => exact ⟨.binaryPrefix, rfl⟩
  | substring text => exact ⟨.substring, rfl⟩
  | pattern hc =>
    obtain ⟨expr, rfl⟩ := Comparator.ofPattern_eq_ok hc
    exact ⟨.pattern, rfl⟩

theorem ComparatorKind.standard_of_build {kind : ComparatorKind} {state : Bytes} {c : Comparator}
    (h : kind.build state = .ok c) : c.Standard := by
  unfold build at h
  cases kind with
  | binary => cases h; exact .binary state
  | binaryPrefix => cases h; exact .binaryPrefix state
  | substring =>
    cases htext : Utf8.decode state with
    | error fault => rw [htext] at h; cases h
    | ok text => rw [htext] at h; cases h; exact .substring text
  | pattern =>
    cases htext : Utf8.decode state with
    | error fault => rw [htext] at h; cases h
    | ok text => rw [htext] at h; exact .pattern h

namespace ComparatorRegistry

variable {comparators : ComparatorRegistry} {name : String} {rebuild : ComparatorConstructor}
  {state : Bytes} {c : Comparator}

/-- The latest registration of a name counts. -/
theorem build_register (comparators : ComparatorRegistry) (name : String)
    (rebuild : ComparatorConstructor) (other : String) (state : Bytes) :
    (comparators.register name rebuild).build other state =
      if other = name then rebuild state else comparators.build other state := by
  rw [build, register]
  by_cases h : other = name
  · subst h
    rw [List.lookup_cons_self, if_pos rfl]
  · rw [List.lookup_cons, beq_false_of_ne h, lookup_filter_key fun key => key != name]
    simp only [bne_iff_ne, ne_eq, h, not_false_eq_true, if_true, if_false]
    rfl

theorem build_standard_name (kind : ComparatorKind) (state : Bytes) :
    standard.build kind.name state = kind.build state := by
  cases kind <;> simp [standard, ComparatorKind.all, ComparatorKind.name, build_register]

theorem utf8_decode_encode (s : String) : Utf8.decode (Utf8.encode s) = .ok s := by
  simp only [Utf8.decode, Utf8.decode?_encode]

/-- **A built-in comparator** is built anew from its own state. -/
theorem build_standard (h : c.Standard) : standard.build c.kind c.state = .ok c := by
  cases h with
  | binary value => exact build_standard_name .binary value
  | binaryPrefix value => exact build_standard_name .binaryPrefix value
  | substring text =>
    refine (build_standard_name .substring (Utf8.encode (LetterCase.lowercase text))).trans ?_
    simp only [ComparatorKind.build, utf8_decode_encode, map_ok, Comparator.ofSubstring,
      LetterCase.lowercase_lowercase]
  | @pattern text c hc =>
    obtain ⟨expr, rfl⟩ := Comparator.ofPattern_eq_ok hc
    refine (build_standard_name .pattern (Utf8.encode text)).trans ?_
    simp only [ComparatorKind.build, utf8_decode_encode]
    exact hc

/-! ## Building once more -/

/-- The registry builds a comparator of the same kind and with the same state from those of a
comparator. -/
def Rebuilds (comparators : ComparatorRegistry) (c : Comparator) : Prop :=
  ∃ c', comparators.build c.kind c.state = .ok c' ∧ c'.kind = c.kind ∧ c'.state = c.state

/-- Whatever the registry builds it builds again, with the same kind and state. -/
def Stable (comparators : ComparatorRegistry) : Prop :=
  ∀ kind state c, comparators.build kind state = .ok c → comparators.Rebuilds c

theorem rebuilds_standard (h : c.Standard) : standard.Rebuilds c := ⟨c, build_standard h, rfl, rfl⟩

/-- **A kind of a caller** may stand beside others, if what is built for it is of this kind and can
be built again, and what is built for the others is not of this kind. -/
theorem Stable.register (h : comparators.Stable)
    (hothers : ∀ kind state c, comparators.build kind state = .ok c → c.kind ≠ name)
    (hkind : ∀ state c, rebuild state = .ok c → c.kind = name ∧
      ∃ c', rebuild c.state = .ok c' ∧ c'.kind = c.kind ∧ c'.state = c.state) :
    (comparators.register name rebuild).Stable := by
  intro kind state c hbuild
  rw [build_register] at hbuild
  split_ifs at hbuild
  · obtain ⟨hname, c', hagain, hsame⟩ := hkind state c hbuild
    exact ⟨c', by rw [build_register, if_pos hname, hagain], hsame⟩
  · obtain ⟨c', hagain, hsame⟩ := h kind state c hbuild
    exact ⟨c', by rw [build_register, if_neg (hothers kind state c hbuild), hagain], hsame⟩

/-! ## Registries of built-in kinds -/

/-- Under every name, whichever it is, comparators of a built-in kind are rebuilt. -/
def BuiltIn (comparators : ComparatorRegistry) : Prop :=
  ∀ entry ∈ comparators.constructors, ∃ kind : ComparatorKind, entry.2 = kind.build

theorem BuiltIn.register (h : comparators.BuiltIn) (name : String) (kind : ComparatorKind) :
    (comparators.register name kind.build).BuiltIn := by
  intro entry hentry
  rcases List.mem_cons.mp hentry with rfl | hentry
  · exact ⟨kind, rfl⟩
  · exact h entry (List.mem_of_mem_filter hentry)

theorem builtIn_standard : standard.BuiltIn := by
  have hempty : empty.BuiltIn := fun entry hentry => absurd hentry List.not_mem_nil
  exact (((hempty.register _ .binary).register _ .binaryPrefix).register _ .substring).register _
    .pattern

theorem BuiltIn.standard_of_build (h : comparators.BuiltIn)
    (hbuild : comparators.build name state = .ok c) : c.Standard := by
  unfold build at hbuild
  cases hlookup : comparators.constructors.lookup name with
  | none => rw [hlookup] at hbuild; cases hbuild
  | some rebuild =>
    obtain ⟨kind, hkind⟩ := h _ (mem_of_lookup hlookup)
    rw [hlookup] at hbuild
    dsimp only at hbuild hkind
    rw [hkind] at hbuild
    exact ComparatorKind.standard_of_build hbuild

/-- The standard registry builds its comparators again. -/
theorem stable_standard : standard.Stable := fun _ _ _ hbuild =>
  rebuilds_standard (builtIn_standard.standard_of_build hbuild)

end ComparatorRegistry

/-! ## A kind that is not built in -/

/-- Compares a number with how many bytes the cell has. -/
def Comparator.length (n : UInt8) : Comparator where
  kind := "length"
  state := [n]
  compareTo cell := n.toNat - cell.length
  description := braced "LengthComparator" [("length", toString n.toNat)]

namespace ComparatorRegistry

/-- The built-in kinds, and one that is rebuilt from the first byte of its state. -/
def withLength : ComparatorRegistry :=
  standard.register "length" fun state =>
    match state with
    | n :: _ => .ok (.length n)
    | [] => .error (.truncated 1 0)

theorem kind_ne_length {c : Comparator} (h : c.Standard) : c.kind ≠ "length" := by
  obtain ⟨kind, hkind⟩ := h.exists_kind
  rw [hkind]
  cases kind <;> decide

theorem withLength_rebuilds_length (n : UInt8) : withLength.Rebuilds (.length n) :=
  ⟨.length n, (build_register standard _ _ _ _).trans (if_pos rfl), rfl, rfl⟩

theorem withLength_rebuilds_standard {c : Comparator} (h : c.Standard) : withLength.Rebuilds c :=
  ⟨c, by rw [withLength, build_register, if_neg (kind_ne_length h), build_standard h], rfl, rfl⟩

theorem stable_withLength : withLength.Stable := by
  refine stable_standard.register (fun kind state c hbuild => ?_) fun state c hbuild => ?_
  · exact kind_ne_length (builtIn_standard.standard_of_build hbuild)
  · cases state with
    | nil => cases hbuild
    | cons n state => cases hbuild; exact ⟨rfl, .length n, rfl, rfl, rfl⟩

end ComparatorRegistry

end CellFilter
