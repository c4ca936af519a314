import FormulaEdit.Arena.Node
import Mathlib.Data.List.Nodup

/-!
# Formula trees

A tree is what an arena stands for: every node carries its id and everything
that is shown of it, and holds its operands themselves instead of their ids.
A context is a tree with a hole, given by the path from the hole to the root.
-/

namespace FormulaEdit

/-- What a node of a tree carries besides its operands. -/
structure Label where
  id : Int
  token : String
  breaksLine : Bool := false
  bracketed : Bool := true
  span : Span := .unknown
deriving DecidableEq, Repr

/-- The node of an arena with a label, a parent and children. -/
def Label.node (label : Label) (parent : Int) (children : List Int) : Node :=
  { id := label.id
    token := label.token
    parent := parent
    children := children
    breaksLine := label.breaksLine
    bracketed := label.bracketed
    span := label.span }

/-- The label of a node of an arena. -/
def Label.ofNode (node : Node) : Label :=
  { id := node.id
    token := node.token
    breaksLine := node.breaksLine
    bracketed := node.bracketed
    span := node.span }

@[simp] theorem Label.id_node (label : Label) (parent : Int)
    (children : List Int) : (label.node parent children).id = label.id := rfl

@[simp] theorem Label.token_node (label : Label) (parent : Int)
    (children : List Int) : (label.node parent children).token = label.token :=
  rfl

@[simp] theorem Label.parent_node (label : Label) (parent : Int)
    (children : List Int) : (label.node parent children).parent = parent := rfl

@[simp] theorem Label.children_node (label : Label) (parent : Int)
    (children : List Int) : (label.node parent children).children = children :=
  rfl

@[simp] theorem Label.ofNode_node (label : Label) (parent : Int)
    (children : List Int) : Label.ofNode (label.node parent children) = label :=
  rfl

@[simp] theorem Label.node_ofNode (node : Node) :
    (Label.ofNode node).node node.parent node.children = node := rfl

/-- A formula with the ids of its nodes. -/
inductive Tree where
  | node (label : Label) (operands : List Tree)
deriving Repr

namespace Tree

/-- The label of the root. -/
def label : Tree → Label
  | .node label _ => label

/-- The trees below the root. -/
def operands : Tree → List Tree
  | .node _ operands => operands

/-- The id of the root. -/
def id (tree : Tree) : Int := tree.label.id

@[simp] theorem label_node (label : Label) (operands : List Tree) :
    (Tree.node label operands).label = label := rfl

@[simp] theorem operands_node (label : Label) (operands : List Tree) :
    (Tree.node label operands).operands = operands := rfl

@[simp] theorem id_node (label : Label) (operands : List Tree) :
    (Tree.node label operands).id = label.id := rfl

/-- What holds of a node when it holds of its operands holds of every tree. -/
@[elab_as_elim, induction_eliminator]
theorem induction {motive : Tree → Prop}
    (node : ∀ label operands, (∀ operand ∈ operands, motive operand) →
      motive (.node label operands)) (tree : Tree) : motive tree :=
  @Tree.rec motive (fun trees => ∀ tree ∈ trees, motive tree)
    (fun label operands below => node label operands below)
    (fun _ member => absurd member List.not_mem_nil)
    (fun _ _ head tail => List.forall_mem_cons.mpr ⟨head, tail⟩) tree

mutual

/-- The ids of a tree, a node before its operands. -/
def ids : Tree → List Int
  | .node label operands => label.id :: idsAll operands

/-- The ids of a list of trees. -/
def idsAll : List Tree → List Int
  | [] => []
  | tree :: trees => tree.ids ++ idsAll trees

end

@[simp] theorem idsAll_nil : idsAll [] = [] := by simp [idsAll]

@[simp] theorem idsAll_cons (tree : Tree) (trees : List Tree) :
    idsAll (tree :: trees) = tree.ids ++ idsAll trees := by
  simp [idsAll]

@[simp] theorem ids_node (label : Label) (operands : List Tree) :
    (Tree.node label operands).ids = label.id :: idsAll operands := by
  simp [ids]

theorem idsAll_eq_flatMap (trees : List Tree) :
    idsAll trees = trees.flatMap ids := by
  induction trees with
  | nil => simp
  | cons tree trees induction => simp [induction]

@[simp] theorem idsAll_append (first second : List Tree) :
    idsAll (first ++ second) = idsAll first ++ idsAll second := by
  simp [idsAll_eq_flatMap]

@[simp] theorem mem_idsAll {id : Int} {trees : List Tree} :
    id ∈ idsAll trees ↔ ∃ tree ∈ trees, id ∈ tree.ids := by
  simp [idsAll_eq_flatMap, List.mem_flatMap]

theorem idsAll_perm {first second : List Tree} (permutation : first.Perm second) :
    (idsAll first).Perm (idsAll second) := by
  rw [idsAll_eq_flatMap, idsAll_eq_flatMap]
  exact permutation.flatMap_right ids

theorem id_mem_ids (tree : Tree) : tree.id ∈ tree.ids := by
  cases tree
  simp

theorem map_id_sublist_idsAll (trees : List Tree) :
    (trees.map Tree.id).Sublist (idsAll trees) := by
  induction trees with
  | nil => simp
  | cons tree trees induction =>
      have head : [tree.id].Sublist tree.ids :=
        List.singleton_sublist.mpr tree.id_mem_ids
      simpa using head.append induction

/-- Among trees with distinct ids, a tree has no root inside but its own. -/
theorem eq_id_of_root {trees : List Tree} (distinct : (idsAll trees).Nodup)
    {tree : Tree} (position : tree ∈ trees) {id : Int}
    (inside : id ∈ tree.ids) (root : id ∈ trees.map Tree.id) :
    id = tree.id := by
  obtain ⟨before, after, rfl⟩ := List.append_of_mem position
  simp only [List.map_append, List.map_cons, List.mem_append,
    List.mem_cons] at root
  simp only [idsAll_append, idsAll_cons, List.nodup_append] at distinct
  obtain ⟨_, ⟨_, _, apartAfter⟩, apartBefore⟩ := distinct
  rcases root with first | same | last
  · have member := (map_id_sublist_idsAll before).subset first
    exact absurd rfl (apartBefore id member id
      (List.mem_append.mpr (.inl inside)))
  · exact same
  · have member := (map_id_sublist_idsAll after).subset last
    exact absurd rfl (apartAfter id inside id member)

theorem nodup_ids_of_mem {trees : List Tree} (distinct : (idsAll trees).Nodup)
    {tree : Tree} (position : tree ∈ trees) : tree.ids.Nodup := by
  rw [idsAll_eq_flatMap, List.nodup_flatMap] at distinct
  exact distinct.1 tree position

theorem nodup_roots {label : Label} {operands : List Tree}
    (distinct : (Tree.node label operands).ids.Nodup) :
    (operands.map Tree.id).Nodup := by
  rw [ids_node, List.nodup_cons] at distinct
  exact distinct.2.sublist (map_id_sublist_idsAll operands)

end Tree

/-- One step of the path to a hole: a node with the operands before and after
the one that the hole lies in. -/
structure Frame where
  label : Label
  before : List Tree
  after : List Tree

/-- The tree of a frame around an operand. -/
def Frame.fill (frame : Frame) (tree : Tree) : Tree :=
  .node frame.label (frame.before ++ tree :: frame.after)

/-- The path from a hole to the root. -/
abbrev Context := List Frame

namespace Context

/-- Fill the hole. -/
def plug : Context → Tree → Tree
  | [], tree => tree
  | frame :: outer, tree => plug outer (frame.fill tree)

/-- The id of the node that the hole is an operand of. -/
def parent : Context → Int
  | [] => Node.noParent
  | frame :: _ => frame.label.id

/-- The ids outside the hole. -/
def ids : Context → List Int
  | [] => []
  | frame :: outer =>
      frame.label.id :: (Tree.idsAll frame.before ++ Tree.idsAll frame.after)
        ++ ids outer

@[simp] theorem plug_nil (tree : Tree) : plug [] tree = tree := rfl

@[simp] theorem plug_cons (frame : Frame) (outer : Context) (tree : Tree) :
    plug (frame :: outer) tree = plug outer (frame.fill tree) := rfl

@[simp] theorem parent_nil : parent [] = Node.noParent := rfl

@[simp] theorem parent_cons (frame : Frame) (outer : Context) :
    parent (frame :: outer) = frame.label.id := rfl

@[simp] theorem ids_nil : ids [] = [] := rfl

@[simp] theorem ids_cons (frame : Frame) (outer : Context) :
    ids (frame :: outer) =
      frame.label.id :: (Tree.idsAll frame.before ++ Tree.idsAll frame.after)
        ++ ids outer := rfl

theorem plug_append (inner outer : Context) (tree : Tree) :
    plug (inner ++ outer) tree = plug outer (plug inner tree) := by
  induction inner generalizing tree with
  | nil => rfl
  | cons frame inner induction => simp [induction]

theorem length_le_ids (context : Context) :
    context.length ≤ context.ids.length := by
  induction context with
  | nil => simp
  | cons frame outer induction =>
      simp only [ids_cons, List.length_cons, List.length_append]
      omega

theorem ids_plug (context : Context) (tree : Tree) :
    (context.plug tree).ids.Perm (tree.ids ++ context.ids) := by
  induction context generalizing tree with
  | nil => simp
  | cons frame outer induction =>
      refine (induction (frame.fill tree)).trans ?_
      simp only [Frame.fill, Tree.ids_node, Tree.idsAll_append,
        Tree.idsAll_cons, ids_cons]
      grind

theorem mem_ids_plug {context : Context} {tree : Tree} {id : Int} :
    id ∈ (context.plug tree).ids ↔ id ∈ tree.ids ∨ id ∈ context.ids := by
  rw [(ids_plug context tree).mem_iff, List.mem_append]

/-- Ids are distinct in a filled context when they are on both sides of the
hole and no id is on both. -/
theorem nodup_plug_iff {context : Context} {tree : Tree} :
    (context.plug tree).ids.Nodup ↔
      tree.ids.Nodup ∧ context.ids.Nodup ∧
        ∀ id ∈ tree.ids, id ∉ context.ids := by
  rw [(ids_plug context tree).nodup_iff, List.nodup_append]
  constructor
  · rintro ⟨inside, outside, apart⟩
    exact ⟨inside, outside, fun id first second => apart id first id second rfl⟩
  · rintro ⟨inside, outside, apart⟩
    refine ⟨inside, outside, ?_⟩
    intro id first other second same
    exact apart id first (same ▸ second)

end Context

theorem Frame.mem_fill {frame : Frame} {tree other : Tree}
    (position : other ∈ frame.before ++ frame.after) :
    other ∈ frame.before ++ tree :: frame.after := by
  rw [List.mem_append] at position
  rcases position with first | last
  · simp [first]
  · simp [last]

theorem Frame.mem_ids_fill {frame : Frame} {tree : Tree} {id : Int} :
    id ∈ (frame.fill tree).ids ↔
      id = frame.label.id ∨ id ∈ tree.ids ∨
        id ∈ Tree.idsAll (frame.before ++ frame.after) := by
  simp only [Frame.fill, Tree.ids_node, Tree.idsAll_append, Tree.idsAll_cons,
    List.mem_cons, List.mem_append]
  grind

/-- An operand, the node above it, the other operands of the node and what
lies outside share no ids. -/
structure Frame.Apart (frame : Frame) (outer : Context) (tree : Tree) :
    Prop where
  tree_distinct : tree.ids.Nodup
  others_distinct : (Tree.idsAll (frame.before ++ frame.after)).Nodup
  label_tree : frame.label.id ∉ tree.ids
  label_others : frame.label.id ∉ Tree.idsAll (frame.before ++ frame.after)
  label_outer : frame.label.id ∉ outer.ids
  tree_others : ∀ id ∈ tree.ids,
    id ∉ Tree.idsAll (frame.before ++ frame.after)
  tree_outer : ∀ id ∈ tree.ids, id ∉ outer.ids
  others_outer : ∀ id ∈ Tree.idsAll (frame.before ++ frame.after),
    id ∉ outer.ids

theorem Frame.apart {frame : Frame} {outer : Context} {tree : Tree}
    (distinct : (Context.plug outer (frame.fill tree)).ids.Nodup) :
    frame.Apart outer tree := by
  have whole : (Context.plug (frame :: outer) tree).ids.Nodup := distinct
  obtain ⟨treeDistinct, around, apart⟩ := Context.nodup_plug_iff.mp whole
  rw [Context.ids_cons, ← Tree.idsAll_append] at around apart
  rw [List.cons_append, List.nodup_cons, List.mem_append, not_or,
    List.nodup_append] at around
  obtain ⟨⟨labelOthers, labelOuter⟩, othersDistinct, _, othersOuter⟩ := around
  have outside : ∀ id ∈ tree.ids, id ≠ frame.label.id ∧
      id ∉ Tree.idsAll (frame.before ++ frame.after) ∧ id ∉ outer.ids := by
    intro id member
    have absent := apart id member
    rwa [List.cons_append, List.mem_cons, not_or, List.mem_append, not_or]
      at absent
  exact
    { tree_distinct := treeDistinct
      others_distinct := othersDistinct
      label_tree := fun member => (outside _ member).1 rfl
      label_others := labelOthers
      label_outer := labelOuter
      tree_others := fun id member => (outside id member).2.1
      tree_outer := fun id member => (outside id member).2.2
      others_outer := fun id member again =>
        othersOuter id member id again rfl }

namespace Frame.Apart

variable {frame : Frame} {outer : Context} {tree : Tree}

theorem root_others (apart : frame.Apart outer tree) :
    tree.id ∉ (frame.before ++ frame.after).map Tree.id := by
  intro member
  exact apart.tree_others tree.id tree.id_mem_ids
    ((Tree.map_id_sublist_idsAll _).subset member)

theorem label_roots (apart : frame.Apart outer tree) :
    frame.label.id ∉ (frame.before ++ frame.after).map Tree.id := by
  intro member
  exact apart.label_others ((Tree.map_id_sublist_idsAll _).subset member)

theorem root_before (apart : frame.Apart outer tree) :
    tree.id ∉ frame.before.map Tree.id := by
  intro member
  exact apart.root_others (by simp [member])

theorem label_ne_root (apart : frame.Apart outer tree) :
    frame.label.id ≠ tree.id := by
  intro same
  exact apart.label_tree (same ▸ tree.id_mem_ids)

end Frame.Apart

/-- Every id of a tree is the root of the filling of some context. -/
theorem Tree.exists_plug {tree : Tree} {id : Int} (member : id ∈ tree.ids) :
    ∃ (context : Context) (subtree : Tree),
      tree = context.plug subtree ∧ subtree.id = id := by
  induction tree with
  | node label operands below =>
      rw [ids_node, List.mem_cons] at member
      rcases member with rfl | inside
      · exact ⟨[], .node label operands, rfl, rfl⟩
      · obtain ⟨operand, position, inOperand⟩ := mem_idsAll.mp inside
        obtain ⟨context, subtree, equality, root⟩ :=
          below operand position inOperand
        obtain ⟨before, after, split⟩ := List.append_of_mem position
        refine ⟨context ++ [⟨label, before, after⟩], subtree, ?_, root⟩
        rw [Context.plug_append, ← equality]
        simp [Frame.fill, split]

end FormulaEdit
