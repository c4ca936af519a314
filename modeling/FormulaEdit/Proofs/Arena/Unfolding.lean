import FormulaEdit.Proofs.Arena.Slots
import FormulaEdit.Proofs.Tree
import Mathlib.Data.List.Perm.Subperm

/-!
# The tree of an arena

Following the children lists from the root unfolds an arena into a tree.
`Holds` says that a tree is spread over the live slots below a parent, and
`Unfolds` that it is so from the root on, each slot being met once.  An arena
that `Presents` a tree has no other live slots.  Both determine the result of
the unfolding function.
-/

namespace FormulaEdit.Arena

/-- A tree stands in the live slots of an arena, below a parent. -/
inductive Holds (arena : Arena) : (parent : Int) → Tree → Prop where
  | node {parent : Int} {label : Label} {operands : List Tree}
      (slot : arena.live? label.id =
        some (label.node parent (operands.map Tree.id)))
      (below : ∀ operand ∈ operands, Holds arena label.id operand) :
      Holds arena parent (.node label operands)

/-- The nodes around a hole stand in the live slots of an arena, `hole` being
the id that they list in its place. -/
def HoldsAround (arena : Arena) : Context → (hole : Int) → Prop
  | [], _ => True
  | frame :: outer, hole =>
      arena.live? frame.label.id =
        some (frame.label.node (Context.parent outer)
          (frame.before.map Tree.id ++ hole :: frame.after.map Tree.id)) ∧
      (∀ tree ∈ frame.before, arena.Holds frame.label.id tree) ∧
      (∀ tree ∈ frame.after, arena.Holds frame.label.id tree) ∧
      HoldsAround arena outer frame.label.id

/-- A tree is met from the root on, every node once. -/
structure Unfolds (arena : Arena) (tree : Tree) : Prop where
  root : arena.root = tree.id
  holds : arena.Holds Node.noParent tree
  distinct : tree.ids.Nodup

/-- Every live slot belongs to the tree that is met from the root on. -/
structure Presents (arena : Arena) (tree : Tree) : Prop extends
    arena.Unfolds tree where
  covered : ∀ id node, arena.live? id = some node → id ∈ tree.ids

/-- The tree below an id, of at most `height` levels. -/
def unfold (arena : Arena) : (height : Nat) → (id : Int) → Option Tree
  | 0, _ => none
  | height + 1, id => do
      let node ← arena.live? id
      let operands ← node.children.mapM (arena.unfold height)
      return .node (.ofNode node) operands

/-- The tree of an arena.  A tree in which every slot is met at most once has
no more levels than there are slots. -/
def tree? (arena : Arena) : Option Tree := arena.unfold arena.size arena.root

theorem length_le_size_of_live {arena : Arena} {ids : List Int}
    (distinct : ids.Nodup)
    (live : ∀ id ∈ ids, ∃ node, arena.live? id = some node) :
    ids.length ≤ arena.size := by
  have bounds : ∀ id ∈ ids, 0 ≤ id ∧ id < arena.size := by
    intro id member
    obtain ⟨node, found⟩ := live id member
    exact live?_bounds found
  have numbers : (ids.map Int.toNat).Nodup := by
    refine List.Nodup.map_on ?_ distinct
    intro first firstMember second secondMember equality
    have firstBounds := bounds first firstMember
    have secondBounds := bounds second secondMember
    omega
  have inside : ids.map Int.toNat ⊆ List.range arena.size := by
    intro number member
    obtain ⟨id, idMember, rfl⟩ := List.mem_map.mp member
    have idBounds := bounds id idMember
    rw [List.mem_range]
    omega
  simpa using (numbers.subperm inside).length_le

namespace Holds

theorem slot {arena : Arena} {parent : Int} {label : Label}
    {operands : List Tree} (holds : arena.Holds parent (.node label operands)) :
    arena.live? label.id = some (label.node parent (operands.map Tree.id)) := by
  cases holds with
  | node slot _ => exact slot

theorem operand_holds {arena : Arena} {parent : Int} {label : Label}
    {operands : List Tree} (holds : arena.Holds parent (.node label operands)) :
    ∀ operand ∈ operands, arena.Holds label.id operand := by
  cases holds with
  | node _ below => exact below

theorem root_live {arena : Arena} {parent : Int} {tree : Tree}
    (holds : arena.Holds parent tree) :
    arena.live? tree.id =
      some (tree.label.node parent (tree.operands.map Tree.id)) := by
  cases holds with
  | node slot _ => exact slot

/-- Only the slots of a tree decide whether an arena holds it. -/
theorem frame {arena edited : Arena} {parent : Int} {tree : Tree}
    (holds : arena.Holds parent tree)
    (same : ∀ id ∈ tree.ids, edited.live? id = arena.live? id) :
    edited.Holds parent tree := by
  induction tree generalizing parent with
  | node label operands induction =>
      refine .node ?_ ?_
      · rw [same label.id (by simp)]
        exact holds.slot
      · intro operand member
        refine induction operand member (holds.operand_holds operand member) ?_
        intro id inside
        exact same id (by
          rw [Tree.ids_node, List.mem_cons]
          exact .inr (Tree.mem_idsAll.mpr ⟨operand, member, inside⟩))

theorem reparent {arena edited : Arena} {parent newParent : Int} {tree : Tree}
    (holds : arena.Holds parent tree) (distinct : tree.ids.Nodup)
    (root : edited.live? tree.id =
      (arena.live? tree.id).map fun node => { node with parent := newParent })
    (same : ∀ id ∈ tree.ids, id ≠ tree.id →
      edited.live? id = arena.live? id) :
    edited.Holds newParent tree := by
  cases tree with
  | node label operands =>
      refine .node ?_ ?_
      · rw [Tree.id_node, holds.slot] at root
        exact root
      · intro operand member
        refine (holds.operand_holds operand member).frame ?_
        intro id inside
        have inOperands : id ∈ Tree.idsAll operands :=
          Tree.mem_idsAll.mpr ⟨operand, member, inside⟩
        have notRoot : id ≠ label.id := by
          rintro rfl
          rw [Tree.ids_node, List.nodup_cons] at distinct
          exact distinct.1 inOperands
        exact same id (by simp [inOperands]) notRoot

theorem live_of_mem {arena : Arena} {parent : Int} {tree : Tree}
    (holds : arena.Holds parent tree) {id : Int} (member : id ∈ tree.ids) :
    ∃ node, arena.live? id = some node := by
  induction tree generalizing parent with
  | node label operands induction =>
      rw [Tree.ids_node, List.mem_cons] at member
      rcases member with rfl | inside
      · exact ⟨_, holds.slot⟩
      · obtain ⟨operand, position, inOperand⟩ := Tree.mem_idsAll.mp inside
        exact induction operand position (holds.operand_holds operand position)
          inOperand

theorem length_le_size {arena : Arena} {parent : Int} {tree : Tree}
    (holds : arena.Holds parent tree) (distinct : tree.ids.Nodup) :
    tree.ids.length ≤ arena.size :=
  length_le_size_of_live distinct fun _ member => holds.live_of_mem member

end Holds

private theorem mapM_eq_some {change : Int → Option Tree} {trees : List Tree}
    (each : ∀ tree ∈ trees, change tree.id = some tree) :
    (trees.map Tree.id).mapM change = some trees := by
  induction trees with
  | nil => rfl
  | cons tree trees induction =>
      obtain ⟨head, tail⟩ := List.forall_mem_cons.mp each
      simp [List.mapM_cons, head, induction tail]

/-- Unfolding finds every tree that an arena holds. -/
theorem unfold_of_holds {arena : Arena} {parent : Int} {tree : Tree}
    {height : Nat} (holds : arena.Holds parent tree)
    (enough : tree.ids.length ≤ height) :
    arena.unfold height tree.id = some tree := by
  induction tree generalizing parent height with
  | node label operands induction =>
      cases height with
      | zero => simp at enough
      | succ height =>
          have operandsFound : (operands.map Tree.id).mapM
              (arena.unfold height) = some operands := by
            refine mapM_eq_some ?_
            intro operand member
            refine induction operand member (holds.operand_holds operand member) ?_
            have part : operand.ids.length ≤ (Tree.idsAll operands).length := by
              obtain ⟨before, after, rfl⟩ := List.append_of_mem member
              simp only [Tree.idsAll_append, Tree.idsAll_cons,
                List.length_append]
              omega
            simp only [Tree.ids_node, List.length_cons] at enough
            omega
          simp only [unfold, Tree.id_node, holds.slot, bind, Option.bind]
          simp [Label.node, Label.ofNode, operandsFound]

namespace Unfolds

theorem tree?_eq_some {arena : Arena} {tree : Tree}
    (unfolds : arena.Unfolds tree) : arena.tree? = some tree := by
  rw [tree?, unfolds.root]
  exact unfold_of_holds unfolds.holds
    (unfolds.holds.length_le_size unfolds.distinct)

end Unfolds

namespace HoldsAround

theorem frame {arena edited : Arena} {context : Context} {hole : Int}
    (around : arena.HoldsAround context hole)
    (same : ∀ id ∈ context.ids, edited.live? id = arena.live? id) :
    edited.HoldsAround context hole := by
  induction context generalizing hole with
  | nil => trivial
  | cons frame outer induction =>
      obtain ⟨slot, before, after, rest⟩ := around
      refine ⟨?_, ?_, ?_, induction rest ?_⟩
      · rw [same frame.label.id (by simp)]
        exact slot
      · intro tree member
        refine (before tree member).frame ?_
        intro id inside
        exact same id (by
          simp only [Context.ids_cons, List.cons_append, List.mem_cons,
            List.mem_append, Tree.mem_idsAll]
          exact .inr (.inl (.inl ⟨tree, member, inside⟩)))
      · intro tree member
        refine (after tree member).frame ?_
        intro id inside
        exact same id (by
          simp only [Context.ids_cons, List.cons_append, List.mem_cons,
            List.mem_append, Tree.mem_idsAll]
          exact .inr (.inl (.inr ⟨tree, member, inside⟩)))
      · intro id inside
        exact same id (by simp [inside])

end HoldsAround

/-- An arena holds a filled context when it holds both of its parts. -/
theorem holds_plug_iff {arena : Arena} {context : Context} {tree : Tree} :
    arena.Holds Node.noParent (context.plug tree) ↔
      arena.HoldsAround context tree.id ∧ arena.Holds context.parent tree := by
  induction context generalizing tree with
  | nil => simp [HoldsAround]
  | cons frame outer induction =>
      rw [Context.plug_cons, induction, Context.parent_cons]
      constructor
      · rintro ⟨rest, filled⟩
        refine ⟨⟨?_, ?_, ?_, rest⟩, ?_⟩
        · simpa [Frame.fill] using filled.slot
        · intro before member
          exact filled.operand_holds before (by simp [member])
        · intro after member
          exact filled.operand_holds after (by simp [member])
        · exact filled.operand_holds tree (by simp)
      · rintro ⟨⟨slot, before, after, rest⟩, inner⟩
        refine ⟨rest, .node (by simpa using slot) ?_⟩
        intro operand member
        rw [List.mem_append, List.mem_cons] at member
        rcases member with inBefore | rfl | inAfter
        · exact before operand inBefore
        · exact inner
        · exact after operand inAfter

namespace Presents

theorem id_lt {arena : Arena} {tree : Tree} (presents : arena.Presents tree)
    {id : Int} (member : id ∈ tree.ids) : id < arena.size := by
  obtain ⟨node, live⟩ := presents.holds.live_of_mem member
  exact (live?_bounds live).2

theorem exists_plug {arena : Arena} {tree : Tree}
    (presents : arena.Presents tree) {id : Int} {node : Node}
    (live : arena.live? id = some node) :
    ∃ (context : Context) (label : Label) (operands : List Tree),
      tree = context.plug (.node label operands) ∧ label.id = id ∧
        node = label.node context.parent (operands.map Tree.id) := by
  obtain ⟨context, subtree, equality, root⟩ :=
    Tree.exists_plug (presents.covered id node live)
  subst equality
  have holds := (holds_plug_iff.mp presents.holds).2
  refine ⟨context, subtree.label, subtree.operands, ?_, root, ?_⟩
  · cases subtree
    rfl
  · have slot := holds.root_live
    rw [root, live] at slot
    exact Option.some.inj slot

end Presents

end FormulaEdit.Arena
