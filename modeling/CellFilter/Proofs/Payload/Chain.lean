import CellFilter.Proofs.Payload.Nesting

/-!
# Chains of units

Units of which each imports the one before it are laid out one inside the other.  Such a payload is
refused before any unit is added, once the chain is longer than the limit.

* `chainUnits`: so many units in a chain.
* `exists_chainPool`: they make up a pool.
* `layout_chain`: the last of them is laid out as a tree without branches.
* `exists_refused_chain`: **a schema whose payload is refused** for its nesting.
-/

namespace CellFilter

open Outcome Relation SchemaPool

/-! ## The units -/

/-- The name of a unit of the chain, and of its message. -/
def chainName (k : Nat) : String := String.singleton (Char.ofNat (256 + k))

/-- A field that refers to the message of a unit. -/
def chainLink (k : Nat) : FieldDescriptor :=
  ⟨some "next", none, some 1, none, some 11, some ("." ++ chainName k), none, []⟩

/-- The number of the unit before, if there is one. -/
def chainBefore : Nat → List Nat
  | 0 => []
  | k + 1 => [k]

/-- The message of a unit, which refers to the message of the unit before. -/
def chainMessage (k : Nat) : MessageDescriptor :=
  ⟨some (chainName k), (chainBefore k).map chainLink, [], [], []⟩

/-- A unit of the chain. -/
def chainUnit (k : Nat) : FileDescriptor :=
  ⟨some (chainName k), none, (chainBefore k).map chainName, [chainMessage k], [], []⟩

/-- The first units of the chain. -/
def chainUnits (n : Nat) : List FileDescriptor := (List.range n).map chainUnit

/-- How long chains may be for their names to differ. -/
def chainLimit : Nat := 300

theorem chainName_inj {j k : Nat} (hj : j < chainLimit) (hk : k < chainLimit)
    (h : chainName j = chainName k) : j = k := by
  have hchar : ∀ n < chainLimit, (Char.ofNat (256 + n)).toNat = 256 + n := by
    intro n hn
    have hvalid : (256 + n).isValidChar := Or.inl (by unfold chainLimit at hn; omega)
    rw [Char.ofNat, dif_pos hvalid]
    rfl
  have hsame : Char.ofNat (256 + j) = Char.ofNat (256 + k) := by
    have hlist := congrArg String.toList h
    simpa [chainName] using hlist
  have hnumber := congrArg Char.toNat hsame
  rw [hchar j hj, hchar k hk] at hnumber
  omega

theorem chainNames_nodup {n : Nat} (hn : n ≤ chainLimit) :
    ((List.range n).map chainName).Nodup := by
  refine List.Nodup.map_on (fun j hj k hk h => ?_) List.nodup_range
  rw [List.mem_range] at hj hk
  exact chainName_inj (by omega) (by omega) h

@[simp] theorem chainUnit_name (k : Nat) : (chainUnit k).name = chainName k := rfl

theorem ofFile_chainUnit (k : Nat) :
    Declaration.ofFile (chainUnit k) = [.message (chainName k) [0] (chainMessage k)] := by
  rfl

theorem mem_chainUnits {n : Nat} {u : FileDescriptor} :
    u ∈ chainUnits n ↔ ∃ k < n, chainUnit k = u := by
  simp [chainUnits]

theorem chainUnits_succ (n : Nat) : chainUnits (n + 1) = chainUnits n ++ [chainUnit n] := by
  simp [chainUnits, List.range_succ]

theorem fullNames_chainUnits (n : Nat) :
    (Declaration.ofFiles (chainUnits n)).map Declaration.fullName =
      (List.range n).map chainName := by
  induction n with
  | zero => rfl
  | succ n ih =>
    rw [chainUnits_succ, Declaration.ofFiles, List.flatMap_append, List.map_append,
      ← Declaration.ofFiles, ih, List.range_succ, List.map_append]
    simp [ofFile_chainUnit, Declaration.fullName]

theorem names_chainUnits (n : Nat) :
    (chainUnits n).map FileDescriptor.name = (List.range n).map chainName := by
  simp [chainUnits, Function.comp_def]

theorem chainBefore_lt {j k : Nat} (h : j ∈ chainBefore k) : j + 1 = k := by
  cases k with
  | zero => cases h
  | succ k => rw [List.mem_singleton.mp h]

/-! ## The pool -/

theorem resolve_chainLink {n k : Nat} (hn : n ≤ chainLimit) (hk : k < n) (scope : String) :
    ∃ f, (scopeOf (chainUnits n)).resolveField scope (chainLink k) = .ok f := by
  have hclear : Clear (chainUnits n) := by
    rw [Clear, fullNames_chainUnits]
    exact chainNames_nodup hn
  obtain ⟨i, hi⟩ := scopeOf_message hclear (mem_chainUnits.mpr ⟨k, hk, rfl⟩)
    (by rw [ofFile_chainUnit]; exact List.mem_singleton_self _)
  have htype : (scopeOf (chainUnits n)).resolveType scope (chainLink k).typeName =
      .ok (.message i) := by
    have hname : (chainLink k).typeName = "." ++ chainName k := rfl
    rw [resolveType_eq_ok, hname, candidates_qualified, List.findSome?_singleton, hi]
  have hkind := fieldKind_eq_ok.mpr (Or.inr ⟨.message i, Or.inr rfl, htype, rfl⟩)
  have hnumber : 0 ≤ ((chainLink k).number?.getD 0).toInt := by
    show 0 ≤ (1 : Int32).toInt
    decide
  exact ⟨_, resolveField_eq_ok.mpr ⟨_, none, hkind, rfl, hnumber, rfl⟩⟩

theorem exists_chainPool : ∀ n ≤ chainLimit, ∃ P : SchemaPool, P.Reachable ∧ P.files = chainUnits n
  | 0, _ => ⟨.empty, .empty, rfl⟩
  | n + 1, hn => by
    obtain ⟨P, hP, hfiles⟩ := exists_chainPool n (by omega)
    have hnot : chainName n ∉ (List.range n).map chainName := by
      have hnodup := chainNames_nodup hn
      rw [List.range_succ, List.map_append, List.nodup_append'] at hnodup
      exact fun h => hnodup.2.2 h (List.mem_singleton_self _)
    have hnew : P.containsFile (chainUnit n).name = false := by
      rw [containsFile, file?_eq_none.mpr (by rw [hfiles, names_chainUnits]; exact hnot)]
      rfl
    have hdeps : ∀ d ∈ (chainUnit n).dependencies, P.containsFile d = true := by
      intro d hd
      obtain ⟨k, hk, rfl⟩ := List.mem_map.mp hd
      have hbefore := chainBefore_lt hk
      exact containsFile_iff.mpr ⟨chainUnit k, hfiles ▸ mem_chainUnits.mpr ⟨k, by omega, rfl⟩, rfl⟩
    have hfresh : P.Fresh (Declaration.ofFile (chainUnit n)) := by
      rw [ofFile_chainUnit]
      refine ⟨List.nodup_singleton _, fun d hd => ?_⟩
      rw [List.mem_singleton.mp hd, ← Option.not_isSome_iff_eq_none, hP.built.type?_eq,
        scopeOf_type?_isSome, hfiles, fullNames_chainUnits]
      exact hnot
    obtain ⟨Q, hadd, hQ⟩ := hP.built.exists_addFile hnew hdeps hfresh (by
      intro d hd
      rw [ofFile_chainUnit] at hd
      obtain rfl := List.mem_singleton.mp hd
      refine exists_mapM_eq_ok fun field hfield => ?_
      obtain ⟨k, hk, rfl⟩ := List.mem_map.mp hfield
      have hbefore := chainBefore_lt hk
      rw [hfiles, ← chainUnits_succ]
      exact resolve_chainLink hn (by omega) _)
    exact ⟨Q, hP.add hadd, by rw [hQ, hfiles, chainUnits_succ]⟩

/-! ## The payload -/

section Chain

variable {P : SchemaPool} {n k : Nat}

/-- A unit of the chain and all units before it, one inside the other. -/
def chainTree : Nat → UnitTree
  | 0 => .declared (chainUnit 0) []
  | k + 1 => .declared (chainUnit (k + 1)) [chainTree k]

theorem chain_imports (hfiles : P.files = chainUnits n) (hk : k + 1 < n) :
    P.Imports (chainUnit (k + 1)) (chainUnit k) := by
  refine ⟨?_, ?_, List.mem_singleton_self _⟩ <;>
  · rw [hfiles]
    exact mem_chainUnits.mpr ⟨_, by omega, rfl⟩

theorem chain_qualified (hfiles : P.files = chainUnits n) (hk : k < n) :
    P.Qualified (chainUnit k) := by
  intro d hd field hfield _
  rw [ofFile_chainUnit] at hd
  obtain rfl := List.mem_singleton.mp hd
  obtain ⟨j, hj, rfl⟩ := List.mem_map.mp hfield
  obtain rfl := chainBefore_lt hj
  refine ⟨chainName j, chainUnit j, rfl, .single (chain_imports hfiles hk), ?_⟩
  rw [FileDescriptor.Declares, ofFile_chainUnit]
  exact List.mem_singleton_self _

theorem chain_dependencies (hP : P.Built) (hfiles : P.files = chainUnits n) (hk : k + 1 < n) :
    UnitTree.directDependencies P (chainUnit (k + 1)) = .ok [chainUnit k] := by
  have hfile : P.file? (chainName k) = some (chainUnit k) :=
    hP.file?_eq_some.mpr ⟨hfiles ▸ mem_chainUnits.mpr ⟨k, by omega, rfl⟩, rfl⟩
  show [chainName k].mapM _ = _
  rw [List.mapM_cons]
  simp only [hfile]
  rfl

/-- A unit of the chain is laid out with all units before it. -/
theorem layOut_chain (hP : P.Built) (hfiles : P.files = chainUnits n) (hn : n ≤ chainLimit)
    (order : List String) : ∀ {k depth : Nat} {known : List String}, k < n → k < depth →
      (∀ j ≤ k, chainName j ∉ known) → ∃ known',
        UnitTree.layOut P order depth (chainUnit k) known = .ok (chainTree k, known')
  | _, 0, _, _, hdepth, _ => absurd hdepth (Nat.not_lt_zero _)
  | 0, depth + 1, known, hk, _, hnew => by
    have hfound : UnitTree.directDependencies P (chainUnit 0) = .ok [] := rfl
    refine ⟨chainName 0 :: known, ?_⟩
    rw [UnitTree.layOut_of_new (hnew 0 le_rfl) hfound, UnitTree.sortByRank, List.mergeSort_nil]
    rfl
  | k + 1, depth + 1, known, hk, hdepth, hnew => by
    have hnext : ∀ j ≤ k, chainName j ∉ chainName (k + 1) :: known := by
      intro j hj hmem
      rcases List.mem_cons.mp hmem with hname | hmem
      · have hsame := chainName_inj (by omega) (by omega) hname
        omega
      · exact hnew j (by omega) hmem
    obtain ⟨known', hbelow⟩ :=
      layOut_chain hP hfiles hn order (by omega) (by omega : k < depth) hnext
    refine ⟨known', ?_⟩
    rw [UnitTree.layOut_of_new (hnew (k + 1) le_rfl) (chain_dependencies hP hfiles hk),
      UnitTree.sortByRank, List.mergeSort_singleton, List.mapM_cons]
    show Except.map _ (UnitTree.layOut P order depth (chainUnit k) _ >>= _) = _
    rw [chainUnit_name, hbelow]
    rfl

/-- The message of a unit of the chain. -/
theorem exists_chainSchema (hP : P.Built) (hfiles : P.files = chainUnits n) (hn : n ≤ chainLimit)
    (hk : k < n) :
    ∃ s : Schema, s.pool = P ∧ s.file = chainUnit k ∧ s.declaration = chainMessage k ∧
      s.fullName = chainName k := by
  have hmem : chainUnit k ∈ P.files := hfiles ▸ mem_chainUnits.mpr ⟨k, hk, rfl⟩
  obtain ⟨i, hi⟩ := scopeOf_message hP.clear hmem
    (by rw [ofFile_chainUnit]; exact List.mem_singleton_self _)
  rw [← hP.type?_eq] at hi
  obtain ⟨s, -, rfl, hname⟩ := hP.ofIndex?_of_type? hi
  obtain ⟨hplace, hdecl, -⟩ := Schema.exists_declared hP
  obtain ⟨j, hj, hunit⟩ := mem_chainUnits.mp (hfiles ▸ List.mem_of_getElem? hplace)
  rw [← hunit, ofFile_chainUnit] at hdecl
  have hsame := List.mem_singleton.mp hdecl
  obtain rfl : j = k := chainName_inj (by omega) (by omega)
    ((congrArg Prod.fst hsame).symm.trans hname)
  exact ⟨s, rfl, hunit.symm, congrArg (fun d => d.2.2) hsame, hname⟩

/-- A unit that imports another one is not shipped alone. -/
theorem chain_not_selfContained {s : Schema} (hs : s.pool.Built)
    (hdecl : s.declaration = chainMessage (k + 1)) : s.isSelfContained = false := by
  rw [← Bool.not_eq_true]
  intro hself
  have hlink : chainLink k ∈ s.declaration.fields := by
    rw [hdecl]
    exact List.mem_singleton_self _
  exact Schema.plain?_ne_none hs hself hlink rfl

theorem layout_chain {s : Schema} (hs : s.pool.Built) (hfiles : s.pool.files = chainUnits n)
    (hn : n ≤ chainLimit) (hk : k + 1 < n) (hfile : s.file = chainUnit (k + 1))
    (hdecl : s.declaration = chainMessage (k + 1)) :
    Payload.layout s = .ok (chainTree (k + 1)) := by
  have hmem : chainUnit (k + 1) ∈ s.pool.files := hfiles ▸ mem_chainUnits.mpr ⟨k + 1, hk, rfl⟩
  obtain ⟨closure, order, hclosure, horder⟩ := hs.order_eq_ok hmem
  have hdepth : k + 1 < s.pool.files.length + 1 := by
    rw [hfiles, chainUnits, List.length_map, List.length_range]
    omega
  have hnew : ∀ j ≤ k + 1, chainName j ∉ ([] : List String) := fun _ _ => List.not_mem_nil
  obtain ⟨known, hlaid⟩ :=
    layOut_chain hs hfiles hn (order.map FileDescriptor.name) hk hdepth hnew
  rw [Payload.layout, chain_not_selfContained hs hdecl, hfile, UnitTree.ofUnit, hclosure]
  show (dependencyOrder closure >>= _) = _
  rw [horder, ok_bind, hlaid]
  rfl

/-- No unit is added before the innermost level is reached. -/
theorem replant_chain : ∀ {k levels : Nat} (pool : SchemaPool), levels ≤ k →
    (chainTree k).replant levels pool = .error (.malformedPayload .unitsNestedTooDeeply)
  | _, 0, _, _ => by rw [UnitTree.replant]
  | k + 1, levels + 1, pool, hdepth => by
    rw [chainTree, UnitTree.replant, UnitTree.replantAll,
      replant_chain pool (Nat.le_of_succ_le_succ hdepth)]
    rfl

end Chain

/-! ## Chains that are too long -/

theorem length_chainUnit : ∀ k < chainLimit,
    (Frame.putText (chainName k) ++ Frame.putBytes (chainUnit k).encode).length ≤ 100 := by
  decide +kernel

theorem length_chainTree : ∀ k < chainLimit, (chainTree k).encode.length ≤ 101 * (k + 1)
  | 0, hk => by
    have hunit := length_chainUnit 0 hk
    have hcount := Varint.length_encode_le ([] : List UnitTree).length 0 (by decide)
    rw [chainTree, UnitTree.encode, UnitTree.encodeAll, chainUnit_name, List.append_nil,
      List.length_append]
    omega
  | k + 1, hk => by
    have hunit := length_chainUnit (k + 1) hk
    have hbelow := length_chainTree k (by omega)
    have hcount := Varint.length_encode_le [chainTree k].length 0 (by simp)
    rw [chainTree, UnitTree.encode, UnitTree.encodeAll, UnitTree.encodeAll, chainUnit_name,
      List.append_nil, List.length_append, List.length_append]
    omega

theorem length_chainFrame {k : Nat} (hk : k < chainLimit) :
    (Payload.frame (chainName k) (chainTree k)).length < UInt64.size := by
  have htarget := length_chainUnit k hk
  have htree := length_chainTree k hk
  have hroom : 101 * (k + 1) + 101 < UInt64.size := by
    unfold chainLimit at hk
    exact Nat.lt_of_le_of_lt (by omega : _ ≤ 101 * 301) (by decide)
  rw [List.length_append] at htarget
  rw [Payload.frame, Frame.putByte, List.length_append, List.length_append, List.length_singleton]
  omega

/-- **A chain that is too long** is encoded, and what it is encoded to is refused, although every
unit refers to nothing but its import, and by its full name. -/
theorem exists_refused_chain (level : Nat) {k : Nat} (hdeep : Payload.maxDepth < k)
    (hk : k < chainLimit) : ∃ (s : Schema) (payload : Bytes), s.pool.Reachable ∧
      s.pool.files = chainUnits (k + 1) ∧ s.file = chainUnit k ∧
      (∀ u, ReflTransGen s.pool.Imports s.file u → s.pool.Qualified u) ∧
      Payload.encode level s = .ok payload ∧
      Payload.decode payload = .error (.malformedPayload .unitsNestedTooDeeply) := by
  obtain ⟨j, rfl⟩ : ∃ j, k = j + 1 := ⟨k - 1, by omega⟩
  obtain ⟨P, hP, hfiles⟩ := exists_chainPool (j + 1 + 1) hk
  obtain ⟨s, rfl, hfile, hdecl, hname⟩ :=
    exists_chainSchema hP.built hfiles hk (Nat.lt_succ_self (j + 1))
  have hlayout := layout_chain hP.built hfiles hk (Nat.lt_succ_self (j + 1)) hfile hdecl
  have hshipped : s.shippedName = chainName (j + 1) := by
    rw [Schema.shippedName, chain_not_selfContained hP.built hdecl, ← hname]
    rfl
  have hbody : Payload.body s = .ok (Payload.frame (chainName (j + 1)) (chainTree (j + 1))) := by
    rw [Payload.body_eq_layout, hlayout, map_ok, hshipped]
  have hencode : Payload.encode level s =
      .ok (Gzip.compress (Payload.frame (chainName (j + 1)) (chainTree (j + 1))) level) := by
    rw [Payload.encode, hbody]
    rfl
  refine ⟨s, _, hP, hfiles, hfile, fun u hr => ?_, hencode, ?_⟩
  · have hplace := (Schema.exists_declared hP.built).1
    have hmem := Imports.mem_of_reaches hr (List.mem_of_getElem? hplace)
    obtain ⟨i, hi, rfl⟩ := mem_chainUnits.mp (hfiles ▸ hmem)
    exact chain_qualified hfiles hi
  · have hroom : ∀ bytes, Payload.body s = .ok bytes → bytes.length < UInt64.size := by
      intro bytes hbytes
      obtain rfl := Except.ok.inj (hbody.symm.trans hbytes)
      exact length_chainFrame hk
    rw [Payload.decode_of_layout hlayout hencode hroom, replant_chain .empty hdeep]
    rfl

end CellFilter
