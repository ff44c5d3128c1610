import CellFilter.Proofs.Payload.Writing

/-!
# Payloads that are passed on

A schema that was rebuilt from a payload is encoded as that payload again.  Its pool holds the units
of the closure in another order, and what it rests on is the same; since a payload depends on
nothing else, the bytes are the same.  A message that refers to no other type comes back in its
standalone unit.  Pruning this unit once more changes nothing.

* `Rebuilds.standalone`: the unit and the declaration of a message that travels alone.
* `Rebuilds.shares`: the pool of a message that does not.
* `Rebuilds.body_eq`: what is written for the rebuilt schema.
* `Payload.encode_decode_fixed`: **re-encoding is a fixpoint**.
-/

namespace CellFilter

open Outcome Relation

namespace Schema

variable {s t : Schema}

/-- The standalone unit of a message that comes from a standalone unit is that unit. -/
theorem standalone_eq (hfile : t.file = s.standalone)
    (hdecl : t.declaration = s.declaration.alone) : t.standalone = s.standalone := by
  have hkept : Record.only (Record.only s.file.carried keptUnitFields) keptUnitFields =
      Record.only s.file.carried keptUnitFields := by
    simp only [Record.only, List.filter_filter, Bool.and_self]
  rw [standalone, hfile, hdecl]
  show FileDescriptor.mk _ _ _ _ _ (Record.only (Record.only _ _) _) = _
  rw [hkept]
  rfl

theorem liftedName_eq (hfile : t.file = s.standalone)
    (hdecl : t.declaration = s.declaration.alone) : t.liftedName = s.liftedName := by
  rw [liftedName, hfile, hdecl]
  rfl

end Schema

namespace Payload

open Schema

variable {s t : Schema} {tree : UnitTree}

theorem Rebuilds.standalone (h : Rebuilds s tree t) (hself : s.isSelfContained = true) :
    t.file = s.standalone ∧ t.declaration = s.declaration.alone := by
  refine standalone_of_files h.built fun u hu => ?_
  have hships : s.Ships u := (h.files u).mp hu
  rwa [Ships, if_pos hself] at hships

theorem Rebuilds.shares (h : Rebuilds s tree t) (hself : s.isSelfContained = false) :
    s.pool.Shares t.pool s.file := by
  intro u hr
  have hships : s.Ships u := by rwa [Ships, if_neg (Bool.eq_false_iff.mp hself)]
  exact h.built.file?_eq_some.mpr ⟨(h.files u).mpr hships, rfl⟩

/-- **A rebuilt schema** is written as the schema that it comes from, under the same name. -/
theorem Rebuilds.body_eq (hs : s.pool.Built) (h : Rebuilds s tree t) :
    Payload.body t = Payload.body s ∧ t.shippedName = s.shippedName := by
  cases hself : s.isSelfContained with
  | true =>
    obtain ⟨hfile, hdecl⟩ := h.standalone hself
    have hself' : t.isSelfContained = true := by
      rw [isSelfContained_congr hs h.built (by rw [hdecl]; rfl), hself]
    have hlifted := liftedName_eq hfile hdecl
    refine ⟨?_, ?_⟩
    · rw [Payload.body, Payload.body, if_pos hself', if_pos hself, hlifted,
        standalone_eq hfile hdecl]
    · rw [shippedName, shippedName, if_pos hself', if_pos hself, hlifted]
  | false =>
    have hshares := h.shares hself
    have hname : s.fullName = t.fullName := by
      rw [h.name, shippedName, if_neg (Bool.eq_false_iff.mp hself)]
    obtain ⟨-, hdecl⟩ := declaration_eq_of_mem h.built hs hshares.mem hname.symm
    have hself' : t.isSelfContained = false := by
      rw [isSelfContained_congr hs h.built (congrArg MessageDescriptor.fields hdecl), hself]
    refine ⟨body_eq_of_shares hs h.built hname hshares, ?_⟩
    rw [shippedName, if_neg (Bool.eq_false_iff.mp hself'), h.name]

/-- **Re-encoding is a fixpoint.**  All payloads of a schema, at whatever level they are compressed,
decode to one schema, and this schema has the same payloads and hashes, under the same target. -/
theorem encode_decode_fixed (hs : s.pool.Reachable) (hnames : s.file.WellNamed)
    (hq : ∀ u, ReflTransGen s.pool.Imports s.file u → s.pool.Qualified u)
    (hship : ∀ u, s.Ships u → u.Shippable)
    (hdepth : ∀ tree, UnitTree.ofUnit s.pool s.file = .ok tree → tree.nesting ≤ maxDepth)
    (hlen : ∀ bytes, body s = .ok bytes → bytes.length < UInt64.size) :
    ∃ t, body t = body s ∧ t.fullName = s.shippedName ∧ t.shippedName = s.shippedName ∧
      ∀ level, ∃ payload, encode level s = .ok payload ∧ decode payload = .ok t ∧
        encode level t = .ok payload ∧ key level t = .ok ⟨s.shippedName, .of payload⟩ := by
  obtain ⟨first, tree, t, hfirst, hdecode, h⟩ :=
    exists_payload 0 hs.built hnames hq hship hdepth hlen
  obtain ⟨hbody, hname⟩ := h.body_eq hs.built
  have hencode : ∀ level,
      encode level s = .ok (Gzip.compress (frame s.shippedName tree) level) := by
    intro level
    rw [encode, h.body]
    rfl
  -- decoding does not depend on the level
  have hsame : ∀ level, decode (Gzip.compress (frame s.shippedName tree) level) = .ok t := by
    intro level
    obtain rfl := Except.ok.inj (hfirst.symm.trans (hencode 0))
    rw [decode, Gzip.decompress_compress, ok_bind] at hdecode ⊢
    exact hdecode
  have hagain : ∀ level, encode level t = encode level s := by
    intro level
    rw [encode, encode, hbody]
  refine ⟨t, hbody, h.name, hname, fun level => ⟨_, hencode level, hsame level, ?_, ?_⟩⟩
  · rw [hagain, hencode]
  · rw [key, hagain, hencode, map_ok, h.name]

/-! ### The message of the last of four units -/

theorem diamondPool_reachable : diamondPool.Reachable := by
  rw [← afterCalls_diamond]
  exact SchemaPool.Reachable.empty.afterCalls diamondCalls

theorem tipUnit_wellNamed : tipUnit.WellNamed :=
  ⟨topUnit_wellNamed.package, topUnit_wellNamed.messages⟩

theorem tipUnit_reaches {u : FileDescriptor} (hr : ReflTransGen diamondPool.Imports tipUnit u) :
    u = baseUnit ∨ u = sideUnit "left.proto" ∨ u = sideUnit "right.proto" ∨ u = tipUnit := by
  have hmem := SchemaPool.Imports.mem_of_reaches hr (by simp [diamondPool])
  simpa [diamondPool] using hmem

theorem diamondPool_qualified {u : FileDescriptor}
    (hr : ReflTransGen diamondPool.Imports tipUnit u) : diamondPool.Qualified u := by
  intro d hd field hfield _
  rcases tipUnit_reaches hr with rfl | rfl | rfl | rfl
  · obtain rfl := List.mem_singleton.mp hd
    cases hfield
  · cases hd
  · cases hd
  · obtain rfl := List.mem_singleton.mp hd
    obtain rfl := List.mem_singleton.mp hfield
    have hside : diamondPool.Imports tipUnit (sideUnit "left.proto") :=
      ⟨by simp [diamondPool], by simp [diamondPool], List.mem_cons_self⟩
    have hbase : diamondPool.Imports (sideUnit "left.proto") baseUnit :=
      ⟨by simp [diamondPool], by simp [diamondPool], List.mem_cons_self⟩
    exact ⟨"demo.Base", baseUnit, by decide, .tail (.single hside) hbase, List.mem_cons_self⟩

theorem diamondSchema_shippable {u : FileDescriptor} (hu : diamondSchema.Ships u) :
    u.Shippable := by
  rcases tipUnit_reaches hu with rfl | rfl | rfl | rfl
  all_goals exact ⟨by decide, by with_unfolding_all rfl⟩

theorem body_diamondSchema : body diamondSchema = .ok (frame "demo.Top" diamondTree) := by
  have hself : diamondSchema.isSelfContained = false := by decide
  have htree : UnitTree.ofUnit diamondSchema.pool diamondSchema.file = .ok diamondTree :=
    ofUnit_tipUnit
  rw [body, if_neg (Bool.eq_false_iff.mp hself), htree]
  rfl

theorem encode_decode_fixed_diamond : ∃ t, body t = .ok (frame "demo.Top" diamondTree) ∧
    t.fullName = "demo.Top" ∧ ∃ payload, encode 6 diamondSchema = .ok payload ∧
      decode payload = .ok t ∧ encode 6 t = .ok payload ∧
        key 6 t = .ok ⟨"demo.Top", .of payload⟩ := by
  obtain ⟨t, hbody, hname, -, hencode⟩ := encode_decode_fixed (s := diamondSchema)
    diamondPool_reachable tipUnit_wellNamed (fun _ => diamondPool_qualified)
    (fun _ => diamondSchema_shippable)
    (by
      intro tree htree
      obtain rfl := Except.ok.inj (ofUnit_tipUnit.symm.trans htree)
      decide)
    (by
      intro bytes h
      obtain rfl := Except.ok.inj (body_diamondSchema.symm.trans h)
      decide +kernel)
  exact ⟨t, hbody.trans body_diamondSchema, hname, hencode 6⟩

end Payload

end CellFilter
