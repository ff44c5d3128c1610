import CellFilter.Proofs.Payload.Layout
import CellFilter.Proofs.Wire.Framing

/-!
# Reading a payload

Reading the bytes of a tree replants it: unit by unit, and down to a limited depth.  As long as the
tree is not nested too deeply, that does what planting the tree does.

* `Shippable`: a unit that can be told from a mere name and survives its own bytes.
* `UnitTree.replant`: what the bytes of a tree do to a pool.
* `gives_readUnit`: reading a tree is replanting it.
* `replant_eq_plant`: replanting a tree of shippable units is planting it.
* `schemaOfBody_frame`: reading a whole payload.
-/

namespace CellFilter

open Outcome Relation

/-- A unit that has a name and that its bytes give back. -/
structure FileDescriptor.Shippable (unit : FileDescriptor) : Prop where
  named : unit.name ≠ ""
  lossless : FileDescriptor.decode unit.encode = .ok unit

theorem FileDescriptor.Shippable.encode_ne_nil {unit : FileDescriptor} (h : unit.Shippable) :
    unit.encode ≠ [] := by
  intro hempty
  have hblank : FileDescriptor.decode [] = .ok ⟨none, none, [], [], [], []⟩ := rfl
  have hunit := h.lossless
  rw [hempty, hblank] at hunit
  exact h.named (by rw [← Except.ok.inj hunit]; rfl)

namespace UnitTree

theorem three_le_length (tree : UnitTree) : 3 ≤ tree.encode.length := by
  have hone : ∀ n, 1 ≤ (Varint.encode n).length := fun n =>
    List.length_pos_iff.mpr (Varint.encode_ne_nil n)
  cases tree with
  | declared unit dependencies =>
    have hname := hone (Utf8.encode unit.name).length
    have hunit := hone unit.encode.length
    have hcount := hone dependencies.length
    simp only [encode, Frame.putText, Frame.putBytes, List.length_append]
    omega
  | reference name =>
    have hname := hone (Utf8.encode name).length
    have hunit := hone ([] : Bytes).length
    have hcount := hone 0
    simp only [encode, Frame.putText, Frame.putBytes, List.length_append]
    omega

theorem length_encodeAll : ∀ trees : List UnitTree, 3 * trees.length ≤ (encodeAll trees).length
  | [] => Nat.zero_le _
  | tree :: rest => by
    have hfirst := tree.three_le_length
    have hrest := length_encodeAll rest
    rw [encodeAll, List.length_append, List.length_cons]
    omega

end UnitTree

namespace Payload

open UnitTree

variable {pool pool' : SchemaPool} {name : String} {unit : FileDescriptor}

theorem addUnit_encode (h : unit.Shippable) :
    addUnit pool unit.name unit.encode = pool.addFile unit := by
  have hsome : unit.encode.isEmpty = false := by simpa using h.encode_ne_nil
  rw [addUnit, hsome, h.lossless]
  simp [Except.mapError]

/-- Reading a unit whose header holds these items. -/
theorem readUnit_apply {levels count : Nat} {descriptor below rest : Bytes}
    (hname : (Utf8.encode name).length < UInt64.size)
    (hdescriptor : descriptor.length < UInt64.size)
    (hcount : count < UInt64.size) (hbelow : 3 * count ≤ below.length) :
    readUnit (levels + 1) pool (Frame.putText name ++ Frame.putBytes descriptor ++
      Varint.encode count ++ below ++ rest) =
      iterate (readUnit levels) count pool (below ++ rest) >>= fun left =>
        (addUnit left.1 name descriptor).map fun pool => (pool, left.2) := by
  have hmany : ¬ (below ++ rest).length / 3 < count := by
    rw [List.length_append]
    omega
  rw [readUnit, List.append_assoc, List.append_assoc, List.append_assoc, Reader.bind_apply,
    (Frame.reads_text hname).apply, ok_bind, Reader.bind_apply, (Frame.reads_bytes hdescriptor).apply, ok_bind,
    Reader.bind_apply, (Frame.reads_varint hcount).apply, ok_bind, Reader.bind_apply]
  show (if (below ++ rest).length / 3 < count then _ else _ : Reader SchemaPool) (below ++ rest) = _
  rw [if_neg hmany, Reader.bind_apply]
  cases iterate (readUnit levels) count pool (below ++ rest) with
  | error e => rfl
  | ok left =>
    obtain ⟨grown, remaining⟩ := left
    show (addUnit grown name descriptor >>= fun pool => Pure.pure (pool, remaining)) =
      (addUnit grown name descriptor).map fun pool => (pool, remaining)
    cases addUnit grown name descriptor <;> rfl

end Payload

namespace UnitTree

mutual

/-- What reading a tree does to a pool when so many levels of units may be entered. -/
def replant : (levels : Nat) → UnitTree → SchemaPool → Except FilterError SchemaPool
  | 0, _, _ => .error (.malformedPayload .unitsNestedTooDeeply)
  | levels + 1, .declared unit dependencies, pool => do
    Payload.addUnit (← replantAll levels dependencies pool) unit.name unit.encode
  | _ + 1, .reference name, pool => Payload.addUnit pool name []

/-- What reading several trees does to a pool. -/
def replantAll : (levels : Nat) → List UnitTree → SchemaPool → Except FilterError SchemaPool
  | _, [], pool => .ok pool
  | levels, tree :: rest, pool => do replantAll levels rest (← tree.replant levels pool)

end

mutual

/-- **Replanting a tree** that is not nested too deeply is planting it. -/
theorem replant_eq_plant : ∀ {tree : UnitTree} {levels : Nat} {pool : SchemaPool},
    tree.nesting < levels → (∀ u ∈ tree.units, u.Shippable) →
      tree.replant levels pool = tree.plant pool
  | _, 0, _, hdepth, _ => absurd hdepth (Nat.not_lt_zero _)
  | .reference _, _ + 1, _, _, _ => rfl
  | .declared unit trees, levels + 1, pool, hdepth, hship => by
    have hbelow : replantAll levels trees pool = plantAll trees pool :=
      replantAll_eq_plantAll (Nat.le_of_lt_succ hdepth)
        fun u hu => hship u (List.mem_cons_of_mem unit hu)
    rw [replant, plant, hbelow]
    simp only [Payload.addUnit_encode (hship unit List.mem_cons_self)]

theorem replantAll_eq_plantAll : ∀ {trees : List UnitTree} {levels : Nat} {pool : SchemaPool},
    nestingOfAll trees ≤ levels → (∀ u ∈ unitsOfAll trees, u.Shippable) →
      replantAll levels trees pool = plantAll trees pool
  | [], _, _, _, _ => rfl
  | tree :: trees, levels, pool, hdepth, hship => by
    rw [nestingOfAll, max_le_iff] at hdepth
    rw [replantAll, plantAll, replant_eq_plant hdepth.1 fun u hu =>
      hship u (List.mem_append_left _ hu)]
    cases tree.plant pool with
    | error e => rfl
    | ok pool' =>
      exact replantAll_eq_plantAll hdepth.2 fun u hu => hship u (List.mem_append_right _ hu)

end

end UnitTree

namespace Payload

open UnitTree

mutual

/-- **Reading a tree** is replanting it. -/
theorem gives_readUnit : ∀ {tree : UnitTree} {levels : Nat} {pool : SchemaPool},
    tree.encode.length < UInt64.size →
      Gives (readUnit levels pool) tree.encode (tree.replant levels pool)
  | _, 0, _, _ => fun _ => by rw [replant]; rfl
  | .reference name, levels + 1, pool, hlen => by
    intro rest
    have hsplit : (UnitTree.reference name).encode =
        Frame.putText name ++ Frame.putBytes [] ++ Varint.encode 0 ++ [] := by
      rw [UnitTree.encode, List.append_nil]
    simp only [UnitTree.encode, Frame.putText, Frame.putBytes, List.length_append] at hlen
    rw [hsplit, readUnit_apply (by omega) (by decide) (by decide) le_rfl]
    rfl
  | .declared unit trees, levels + 1, pool, hlen => by
    intro rest
    simp only [UnitTree.encode, Frame.putText, Frame.putBytes, List.length_append] at hlen
    have hmany := length_encodeAll trees
    have hbelow : Gives (iterate (readUnit levels) trees.length pool) (encodeAll trees)
        (replantAll levels trees pool) := gives_iterate (by omega)
    rw [UnitTree.encode, readUnit_apply (by omega) (by omega) (by omega) hmany, hbelow, replant]
    cases replantAll levels trees pool <;> rfl

theorem gives_iterate : ∀ {trees : List UnitTree} {levels : Nat} {pool : SchemaPool},
    (encodeAll trees).length < UInt64.size →
      Gives (iterate (readUnit levels) trees.length pool) (encodeAll trees)
        (replantAll levels trees pool)
  | [], levels, pool, _ => .pure pool
  | tree :: trees, levels, pool, hlen => by
    rw [encodeAll, List.length_append] at hlen
    have hfirst : Gives (readUnit levels pool) tree.encode (tree.replant levels pool) :=
      gives_readUnit (by omega)
    exact hfirst.bind fun _ _ => gives_iterate (by omega)

end

/-- Reading a framed tree yields its target and the pool that replanting it makes. -/
theorem gives_read {tree : UnitTree} {target : String}
    (hlen : (frame target tree).length < UInt64.size) : Gives read (frame target tree)
      ((tree.replant (maxDepth + 1) .empty).map fun pool => (target, pool)) := by
  simp only [frame, Frame.putText, Frame.putBytes, List.length_append] at hlen
  have htarget : Reads Frame.text (Frame.putText target) target := Frame.reads_text (by omega)
  have htree : Gives (readUnit (maxDepth + 1) .empty) tree.encode
      (tree.replant (maxDepth + 1) .empty) := gives_readUnit (by omega)
  rw [frame, List.append_assoc]
  exact (Frame.reads_byte version).bind
    (htarget.bind (htree.andReturn fun pool => (target, pool)))

/-- The schema of a target, which has to be in the pool. -/
def targetIn (target : String) (pool : SchemaPool) : Except FilterError Schema :=
  match Schema.ofPool? pool target with
  | some s => .ok s
  | none => .error (.malformedPayload (.undeclaredTarget target))

/-- The schema of a framed tree is that of its target in the replanted pool. -/
theorem schemaOfBody_eq {tree : UnitTree} {target : String}
    (hlen : (frame target tree).length < UInt64.size) :
    schemaOfBody (frame target tree) =
      tree.replant (maxDepth + 1) .empty >>= targetIn target := by
  rw [schemaOfBody, (gives_read hlen).whole]
  cases tree.replant (maxDepth + 1) .empty <;> rfl

theorem schemaOfBody_frame {tree : UnitTree} {target : String} {Q : SchemaPool} {t : Schema}
    (hdepth : tree.nesting ≤ maxDepth) (hlen : (frame target tree).length < UInt64.size)
    (hship : ∀ u ∈ tree.units, u.Shippable) (hplant : tree.plant .empty = .ok Q)
    (ht : Schema.ofPool? Q target = some t) : schemaOfBody (frame target tree) = .ok t := by
  rw [schemaOfBody_eq hlen, replant_eq_plant (Nat.lt_succ_of_le hdepth) hship, hplant, ok_bind,
    targetIn, ht]

end Payload

end CellFilter
