import CellFilter.Proofs.Payload.RoundTrip

/-!
# How deep a payload may be nested

Nothing limits how deep a payload is nested when it is written, and reading it enters a limited
number of levels.  Only reading a unit on too deep a level is refused for that reason; so a payload
is refused for its nesting exactly if it is nested too deeply.

* `Unhindered`: a computation that is not refused for too deep a nesting.
* `Unhindered.addUnit`: adding a unit is never refused for that reason.
* `UnitTree.replant_unhindered`, `UnitTree.replant_of_deep`: a tree within the limit and beyond it.
* `Payload.decode_unhindered`, `Payload.decode_of_deep`: the same of whole payloads.
-/

namespace CellFilter

open Outcome Relation

/-- Whether an error says that something is nested too deeply. -/
def FilterError.isNesting : FilterError → Bool
  | .malformedPayload .unitsNestedTooDeeply => true
  | .malformedPayload .groupsNestedTooDeeply => true
  | _ => false

/-- A computation that does not fail for too deep a nesting. -/
def Unhindered {α : Type} (x : Except FilterError α) : Prop :=
  ∀ e, x = .error e → e.isNesting = false

namespace Unhindered

section Steps

variable {α β : Type} {x : Except FilterError α} {f : α → Except FilterError β} {e : FilterError}

theorem ok (a : α) : Unhindered (.ok a) := FailsOnly.ok a

theorem error (h : e.isNesting = false) : Unhindered (.error e : Except FilterError α) :=
  FailsOnly.error h

theorem bind (h : Unhindered x) (hf : ∀ a, Unhindered (f a)) : Unhindered (x >>= f) :=
  FailsOnly.bind h fun a _ => hf a

theorem map {f : α → β} (h : Unhindered x) : Unhindered (x.map f) := FailsOnly.map h f

theorem mapM {as : List α} (h : ∀ a ∈ as, Unhindered (f a)) : Unhindered (as.mapM f) :=
  FailsOnly.mapM h

theorem foldlM {f : β → α → Except FilterError β} {as : List α} (h : ∀ b a, Unhindered (f b a))
    (b : β) : Unhindered (as.foldlM f b) := FailsOnly.foldlM h b

theorem ne_error (h : Unhindered x) (he : e.isNesting = true) : x ≠ .error e := by
  intro hx
  rw [h e hx] at he
  cases he

end Steps

/-! ## Adding a unit -/

variable (pool : SchemaPool)

theorem declare (d : Declaration) : Unhindered (pool.declare d) := by
  unfold SchemaPool.declare
  split_ifs
  · exact error rfl
  · cases d <;> exact ok _

theorem resolveType (scope typeName : String) : Unhindered (pool.resolveType scope typeName) := by
  unfold SchemaPool.resolveType
  dsimp only
  split
  · exact ok _
  · exact error rfl

theorem fieldKind (scope : String) (field : FieldDescriptor) :
    Unhindered (pool.fieldKind scope field) := by
  have hresolve := resolveType pool scope (field.typeName?.getD "")
  unfold SchemaPool.fieldKind
  dsimp only
  split
  · exact hresolve.bind fun ref => by cases ref <;> exact ok _
  · split
    · exact ok _
    · split_ifs
      · exact hresolve.bind fun ref => by
          cases ref with
          | message index => exact ok _
          | enum index => exact error rfl
      · exact hresolve.bind fun ref => by
          cases ref with
          | message index => exact error rfl
          | enum index => exact ok _
      · exact error rfl

theorem fieldDefault (fullName : String) (kind : FieldKind) (text? : Option String) :
    Unhindered (pool.fieldDefault fullName kind text?) := by
  unfold SchemaPool.fieldDefault
  split
  · exact ok none
  · split
    · exact ok _
    · exact error rfl

theorem resolveField (scope : String) (field : FieldDescriptor) :
    Unhindered (pool.resolveField scope field) := by
  unfold SchemaPool.resolveField
  refine (fieldKind pool scope field).bind fun kind => ?_
  refine (fieldDefault pool _ kind _).bind fun default? => ?_
  dsimp only
  split_ifs
  · exact error rfl
  · exact ok _

theorem resolveDeclared : ∀ ds : List Declaration, Unhindered (pool.resolveDeclared ds)
  | [] => ok []
  | .enum _ _ :: rest => resolveDeclared rest
  | .message fullName _ _ :: rest =>
    (mapM fun field _ => resolveField pool fullName field).bind fun fields =>
      (resolveDeclared rest).bind fun others => ok (fields :: others)

theorem register (file : FileDescriptor) : Unhindered (pool.register file) :=
  (foldlM declare pool).bind fun declared =>
    (resolveDeclared declared (Declaration.ofFile file)).bind fun _ => ok _

theorem addFile (file : FileDescriptor) : Unhindered (pool.addFile file) := by
  unfold SchemaPool.addFile
  split_ifs
  · exact ok pool
  · split
    · exact error rfl
    · exact (register pool file).bind fun _ => ok _

/-- **Adding a unit** is never refused for too deep a nesting. -/
theorem addUnit (name : String) (descriptor : Bytes) :
    Unhindered (Payload.addUnit pool name descriptor) := by
  unfold Payload.addUnit
  split_ifs
  · exact ok pool
  · exact error rfl
  · cases FileDescriptor.decode descriptor with
    | error fault => exact error rfl
    | ok unit =>
      show Unhindered (if unit.name ≠ name then _ else _)
      split_ifs
      · exact error rfl
      · exact addFile pool unit

end Unhindered

/-! ## Trees of units -/

namespace UnitTree

mutual

/-- Within the limit, a tree is not refused for its nesting. -/
theorem replant_unhindered : ∀ {tree : UnitTree} {levels : Nat} (pool : SchemaPool),
    tree.nesting < levels → Unhindered (tree.replant levels pool)
  | _, 0, _, hdepth => absurd hdepth (Nat.not_lt_zero _)
  | .reference name, _ + 1, pool, _ => Unhindered.addUnit pool name []
  | .declared unit _, _ + 1, pool, hdepth =>
    (replantAll_unhindered pool (Nat.le_of_lt_succ hdepth)).bind fun grown =>
      Unhindered.addUnit grown unit.name unit.encode

theorem replantAll_unhindered : ∀ {trees : List UnitTree} {levels : Nat} (pool : SchemaPool),
    nestingOfAll trees ≤ levels → Unhindered (replantAll levels trees pool)
  | [], _, pool, _ => .ok pool
  | tree :: trees, levels, pool, hdepth => by
    rw [nestingOfAll, max_le_iff] at hdepth
    exact (replant_unhindered pool hdepth.1).bind fun grown =>
      replantAll_unhindered grown hdepth.2

end

mutual

/-- Beyond the limit, a tree that could be planted otherwise is refused for its nesting. -/
theorem replant_of_deep : ∀ {tree : UnitTree} {levels : Nat} {pool pool' : SchemaPool},
    levels ≤ tree.nesting → (∀ u ∈ tree.units, u.Shippable) → tree.plant pool = .ok pool' →
      tree.replant levels pool = .error (.malformedPayload .unitsNestedTooDeeply)
  | _, 0, _, _, _, _, _ => by rw [replant]
  | .reference _, levels + 1, _, _, hdepth, _, _ => absurd hdepth (Nat.not_succ_le_zero levels)
  | .declared unit trees, levels + 1, _, _, hdepth, hship, hplant => by
    obtain ⟨_, hbelow, -⟩ := bind_eq_ok.mp hplant
    rw [replant, replantAll_of_deep hdepth (fun u hu => hship u (List.mem_cons_of_mem unit hu))
      hbelow]
    rfl

theorem replantAll_of_deep : ∀ {trees : List UnitTree} {levels : Nat} {pool pool' : SchemaPool},
    levels < nestingOfAll trees → (∀ u ∈ unitsOfAll trees, u.Shippable) →
      plantAll trees pool = .ok pool' →
        replantAll levels trees pool = .error (.malformedPayload .unitsNestedTooDeeply)
  | [], _, _, _, hdepth, _, _ => absurd hdepth (Nat.not_lt_zero _)
  | tree :: trees, levels, pool, _, hdepth, hship, hplant => by
    obtain ⟨pool', hfirst, hrest⟩ := bind_eq_ok.mp hplant
    have hhere : ∀ u ∈ tree.units, u.Shippable := fun u hu => hship u (List.mem_append_left _ hu)
    rw [replantAll]
    by_cases hdeep : levels ≤ tree.nesting
    · rw [replant_of_deep hdeep hhere hfirst]
      rfl
    -- the trees in front of the one that is too deep are planted
    · rw [replant_eq_plant (Nat.lt_of_not_le hdeep) hhere, hfirst, ok_bind]
      rw [nestingOfAll, lt_max_iff] at hdepth
      exact replantAll_of_deep (hdepth.resolve_left fun h => hdeep (Nat.le_of_lt_succ h))
        (fun u hu => hship u (List.mem_append_right _ hu)) hrest

end

end UnitTree

/-! ## Payloads -/

namespace Payload

open Schema SchemaPool UnitTree

variable {s : Schema} {tree : UnitTree} {payload : Bytes} {level : Nat}

/-- The units of a payload as they are laid out. -/
def layout (s : Schema) : Except FilterError UnitTree :=
  if s.isSelfContained then .ok (.declared s.standalone []) else UnitTree.ofUnit s.pool s.file

theorem body_eq_layout (s : Schema) : body s = (layout s).map (frame s.shippedName) := by
  unfold body layout shippedName
  cases s.isSelfContained with
  | true => rfl
  | false =>
    show (UnitTree.ofUnit s.pool s.file >>= _) = (UnitTree.ofUnit s.pool s.file).map _
    cases UnitTree.ofUnit s.pool s.file <;> rfl

/-- What is encoded was laid out. -/
theorem exists_layout (hencode : encode level s = .ok payload) : ∃ tree, layout s = .ok tree := by
  obtain ⟨bytes, hbody, -⟩ := bind_eq_ok.mp hencode
  rw [body_eq_layout] at hbody
  obtain ⟨tree, htree, -⟩ := map_eq_ok.mp hbody
  exact ⟨tree, htree⟩

/-- What decoding does with the units that were laid out. -/
theorem decode_of_layout (htree : layout s = .ok tree) (hencode : encode level s = .ok payload)
    (hlen : ∀ bytes, body s = .ok bytes → bytes.length < UInt64.size) :
    decode payload = tree.replant (maxDepth + 1) .empty >>= targetIn s.shippedName := by
  have hbody : body s = .ok (frame s.shippedName tree) := by rw [body_eq_layout, htree, map_ok]
  rw [encode, hbody] at hencode
  cases hencode
  rw [decode, Gzip.decompress_compress, ok_bind, schemaOfBody_eq (hlen _ hbody)]

/-- A payload within the limit is not refused for its nesting. -/
theorem decode_unhindered (htree : layout s = .ok tree) (hencode : encode level s = .ok payload)
    (hlen : ∀ bytes, body s = .ok bytes → bytes.length < UInt64.size)
    (hdepth : tree.nesting ≤ maxDepth) : Unhindered (decode payload) := by
  rw [decode_of_layout htree hencode hlen]
  refine (replant_unhindered .empty (Nat.lt_succ_of_le hdepth)).bind fun pool => ?_
  unfold targetIn
  split
  · exact .ok _
  · exact .error rfl

/-- Units are nested no deeper than imports go. -/
theorem nesting_layout (hs : s.pool.Built) (hshallow : s.pool.Shallow maxDepth s.file)
    (htree : layout s = .ok tree) : tree.nesting ≤ maxDepth := by
  unfold layout at htree
  split_ifs at htree
  · cases htree
    exact Nat.zero_le _
  · exact nesting_ofUnit hs (List.mem_of_getElem? (exists_declared hs).1) hshallow htree

/-- A payload beyond the limit is refused for its nesting. -/
theorem decode_of_deep (hs : s.pool.Built)
    (hq : ∀ u, ReflTransGen s.pool.Imports s.file u → s.pool.Qualified u)
    (hship : ∀ u, s.Ships u → u.Shippable) (htree : layout s = .ok tree)
    (hencode : encode level s = .ok payload)
    (hlen : ∀ bytes, body s = .ok bytes → bytes.length < UInt64.size)
    (hdepth : maxDepth < tree.nesting) :
    decode payload = .error (.malformedPayload .unitsNestedTooDeeply) := by
  rw [decode_of_layout htree hencode hlen]
  unfold layout at htree
  split_ifs at htree with hself
  · cases htree
    exact absurd hdepth (Nat.not_lt_zero _)
  · have hfile := List.mem_of_getElem? (exists_declared hs).1
    obtain ⟨laid, Q, hlaid, hplant, -, -, hunits⟩ := ofUnit_plants hs hfile hq
    obtain rfl : laid = tree := Except.ok.inj (hlaid.symm.trans htree)
    have hships : ∀ u ∈ laid.units, u.Shippable := fun u hu =>
      hship u (by rw [Ships, if_neg hself]; exact hunits u hu)
    rw [replant_of_deep hdepth hships hplant]
    rfl

end Payload

end CellFilter
