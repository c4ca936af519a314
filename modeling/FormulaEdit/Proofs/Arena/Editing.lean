import FormulaEdit.Proofs.Arena.Validity

/-!
# Arenas after a local edit

An edit that touches few slots keeps the rest of the tree.  These are the
frame arguments that the rules share: relabelling one node, and refilling a
hole after the nodes of the old filling were rewired.
-/

namespace FormulaEdit

namespace Context

theorem id_plug_congr (context : Context) {first second : Tree}
    (same : first.id = second.id) :
    (context.plug first).id = (context.plug second).id := by
  induction context generalizing first second with
  | nil => exact same
  | cons frame outer induction => exact induction rfl

end Context

namespace Arena

theorem Unfolds.congr {arena edited : Arena} {tree : Tree}
    (unfolds : arena.Unfolds tree) (root : edited.root = arena.root)
    (same : ∀ id, edited.live? id = arena.live? id) : edited.Unfolds tree :=
  { root := root.trans unfolds.root
    holds := unfolds.holds.frame fun id _ => same id
    distinct := unfolds.distinct }

theorem Unfolds.refresh {arena : Arena} {tree : Tree}
    (unfolds : arena.Unfolds tree) : arena.refresh.Unfolds tree :=
  unfolds.congr rfl fun _ => rfl

theorem Presents.refresh {arena : Arena} {tree : Tree}
    (presents : arena.Presents tree) : arena.refresh.Presents tree :=
  { presents.toUnfolds.refresh with covered := presents.covered }

theorem Unfolds.of_plug {arena : Arena} {context : Context} {tree : Tree}
    (root : arena.root = (context.plug tree).id)
    (around : arena.HoldsAround context tree.id)
    (holds : arena.Holds context.parent tree)
    (distinct : (context.plug tree).ids.Nodup) :
    arena.Unfolds (context.plug tree) :=
  { root := root
    holds := holds_plug_iff.mpr ⟨around, holds⟩
    distinct := distinct }

theorem Unfolds.apart {arena : Arena} {context : Context} {tree : Tree}
    (unfolds : arena.Unfolds (context.plug tree)) :
    ∀ id ∈ tree.ids, id ∉ context.ids :=
  (Context.nodup_plug_iff.mp unfolds.distinct).2.2

theorem parentOf_of_around {arena : Arena} {frame : Frame} {outer : Context}
    {hole : Int} (around : arena.HoldsAround (frame :: outer) hole)
    {node : Node} (up : node.parent = frame.label.id) :
    arena.parentOf node = .ok (some (frame.label.node outer.parent
      (frame.before.map Tree.id ++ hole :: frame.after.map Tree.id))) := by
  have slot := around.1
  have notTop := live?_ne_noParent slot
  simp [parentOf, up, notTop, node_of_live slot, Except.map]

/-- One node may get another label under its id, and its operands another
order. -/
theorem Presents.relabel {arena edited : Arena} {context : Context}
    {old new : Label} {operands reordered : List Tree}
    (presents : arena.Presents (context.plug (.node old operands)))
    (sameId : new.id = old.id) (permutation : reordered.Perm operands)
    (root : edited.root = arena.root)
    (slots : ∀ id, edited.live? id =
      if id = old.id then
        some (new.node context.parent (reordered.map Tree.id))
      else arena.live? id) :
    edited.Presents (context.plug (.node new reordered)) := by
  obtain ⟨around, holds⟩ := holds_plug_iff.mp presents.holds
  have apart := presents.apart
  have inside := (Context.nodup_plug_iff.mp presents.distinct).1
  have sameIds :
      (Tree.node new reordered).ids.Perm (Tree.node old operands).ids := by
    rw [Tree.ids_node, Tree.ids_node, sameId]
    exact (Tree.idsAll_perm permutation).cons old.id
  have plugIds : (context.plug (.node new reordered)).ids.Perm
      (context.plug (.node old operands)).ids :=
    (Context.ids_plug _ _).trans
      ((sameIds.append_right _).trans (Context.ids_plug _ _).symm)
  have aroundEdited : edited.HoldsAround context old.id := by
    refine around.frame ?_
    intro id outside
    have different : id ≠ old.id := by
      rintro rfl
      exact apart old.id (by simp) outside
    rw [slots, if_neg different]
  have holdsEdited : edited.Holds context.parent (.node new reordered) := by
    refine .node (by rw [slots, if_pos sameId]) ?_
    intro operand member
    have position := permutation.mem_iff.mp member
    rw [sameId]
    refine (holds.operand_holds operand position).frame ?_
    intro id inOperand
    have different : id ≠ old.id := by
      rintro rfl
      rw [Tree.ids_node, List.nodup_cons] at inside
      exact inside.1 (Tree.mem_idsAll.mpr ⟨operand, position, inOperand⟩)
    rw [slots, if_neg different]
  have unfolds : edited.Unfolds (context.plug (.node new reordered)) := by
    refine .of_plug ?_ ?_ holdsEdited (plugIds.nodup_iff.mpr presents.distinct)
    · rw [root, presents.root]
      exact context.id_plug_congr sameId.symm
    · rw [Tree.id_node, sameId]
      exact aroundEdited
  refine { unfolds with covered := ?_ }
  intro id node live
  rw [plugIds.mem_iff]
  by_cases same : id = old.id
  · rw [same, Context.mem_ids_plug]
    exact .inl (by simp)
  · rw [slots, if_neg same] at live
    exact presents.covered id node live

/-- A live node whose parent was deleted spoils an arena. -/
theorem validate_ne_ok_of_orphan {arena : Arena} {node : Node}
    (live : node ∈ arena.liveNodes)
    (orphan : arena.node? node.parent = some Node.tombstone) :
    arena.validate ≠ .ok () := by
  intro valid
  have linked := validate_eq_ok_iff_linked.mp valid
  obtain ⟨id, present⟩ := mem_liveNodes_iff.mp live
  have notTop : node.parent ≠ Node.noParent := by
    have bounds := node?_bounds orphan
    unfold Node.noParent
    omega
  obtain ⟨parent, parentLive, _⟩ := linked.parents id node present notTop
  obtain ⟨found, alive⟩ := live?_eq_some_iff.mp parentLive
  rw [orphan] at found
  cases found
  exact absurd alive (by decide)

end Arena

end FormulaEdit
