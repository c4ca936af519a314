import FormulaEdit.Arena.Validity
import FormulaEdit.Proofs.Arena.Unfolding

/-!
# Checked arenas are trees

The checker looks at one slot after the other.  `Linked` collects what it has
found when it reports no fault, and `Climbs` counts the links above a node.
An arena passes the check exactly when its live slots present a tree.
-/

namespace FormulaEdit.Arena

/-- Following parents from a node takes this many links to the root, all to
live nodes. -/
inductive Climbs (arena : Arena) : Node → (links : Nat) → Prop where
  | root {node : Node} (top : node.parent = Node.noParent) :
      Climbs arena node 0
  | up {node parent : Node} {links : Nat}
      (live : arena.live? node.parent = some parent)
      (rest : Climbs arena parent links) : Climbs arena node (links + 1)

/-- What the check of an arena establishes, slot by slot. -/
structure Linked (arena : Arena) : Prop where
  root : ∃ node, arena.live? arena.root = some node ∧
    node.parent = Node.noParent
  ids : ∀ id node, arena.live? id = some node → node.id = id
  oneRoot : ∀ id node, arena.live? id = some node →
    node.parent = Node.noParent → id = arena.root
  parents : ∀ id node, arena.live? id = some node →
    node.parent ≠ Node.noParent →
      ∃ parent, arena.live? node.parent = some parent ∧
        parent.children.count id = 1
  children : ∀ id node, arena.live? id = some node →
    ∀ child ∈ node.children,
      ∃ below, arena.live? child = some below ∧ below.parent = id
  climbs : ∀ id node, arena.live? id = some node →
    ∃ links, links ≤ arena.size + 1 ∧ arena.Climbs node links

namespace Climbs

theorem unique {arena : Arena} {node : Node} {first second : Nat}
    (climbs : arena.Climbs node first) (again : arena.Climbs node second) :
    first = second := by
  induction climbs generalizing second with
  | root top =>
      cases again with
      | root => rfl
      | up live _ => exact absurd top (live?_ne_noParent live)
  | up live _ induction =>
      cases again with
      | root top => exact absurd top (live?_ne_noParent live)
      | up liveAgain rest =>
          rw [live] at liveAgain
          cases liveAgain
          rw [induction rest]

end Climbs

/-- Climbing succeeds exactly when the fuel lasts for all links. -/
theorem climb_eq_ok_iff {arena : Arena} {start : Int} {fuel depth total : Nat}
    {node : Node} :
    arena.climb start fuel depth node = .ok total ↔
      ∃ links, links ≤ fuel ∧ total = depth + links ∧
        arena.Climbs node links := by
  induction fuel generalizing depth node with
  | zero =>
      by_cases top : node.parent = Node.noParent
      · simp only [climb, top, if_true, Except.ok.injEq, Nat.le_zero]
        constructor
        · rintro rfl
          exact ⟨0, rfl, rfl, .root top⟩
        · rintro ⟨links, rfl, rfl, _⟩
          rfl
      · simp only [climb, top, if_false, reduceCtorEq, Nat.le_zero, false_iff]
        rintro ⟨links, rfl, _, climbs⟩
        cases climbs with
        | root atTop => exact top atTop
  | succ fuel induction =>
      by_cases top : node.parent = Node.noParent
      · simp only [climb, top, if_true, Except.ok.injEq]
        constructor
        · rintro rfl
          exact ⟨0, Nat.zero_le _, rfl, .root top⟩
        · rintro ⟨links, _, rfl, climbs⟩
          rw [climbs.unique (.root top)]
          rfl
      · simp only [climb, top, if_false, Result.bind_eq_ok_iff,
          node_eq_ok_iff]
        constructor
        · rintro ⟨parent, found, rest⟩
          by_cases live : parent.isLive = true
          · simp only [live, if_true] at rest
            obtain ⟨links, enough, rfl, climbs⟩ := induction.mp rest
            refine ⟨links + 1, by omega, by omega, ?_⟩
            exact .up (live?_eq_some_iff.mpr ⟨found, live⟩) climbs
          · simp [live] at rest
        · rintro ⟨links, enough, rfl, climbs⟩
          cases climbs with
          | root atTop => exact absurd atTop top
          | @up _ parent links live rest =>
              obtain ⟨found, alive⟩ := live?_eq_some_iff.mp live
              refine ⟨parent, found, ?_⟩
              simp only [alive, if_true]
              exact induction.mpr ⟨links, by omega, by omega, rest⟩

theorem depth_eq_ok_iff {arena : Arena} {node : Node} {links : Nat} :
    arena.depth node = .ok links ↔
      links ≤ arena.size + 1 ∧ arena.Climbs node links := by
  simp [depth, climb_eq_ok_iff]

theorem require_eq_ok_iff {condition : Bool} {fault : ArenaFault} :
    require condition fault = .ok () ↔ condition = true := by
  cases condition <;> simp [require]

theorem checkParent_eq_ok_iff {arena : Arena} {node : Node} :
    arena.checkParent node = .ok () ↔
      (node.parent = Node.noParent → node.id = arena.root) ∧
      (node.parent ≠ Node.noParent →
        ∃ parent, arena.live? node.parent = some parent ∧
          parent.children.count node.id = 1) := by
  unfold checkParent
  by_cases top : node.parent = Node.noParent
  · simp [Node.isRoot, top, require_eq_ok_iff]
  · simp [Node.isRoot, top, Result.bind_eq_ok_iff, Result.exists_unit_iff,
      require_eq_ok_iff, node_eq_ok_iff, live?_eq_some_iff, and_assoc]

theorem checkChildren_eq_ok_iff {arena : Arena} {node : Node}
    {children : List Int} :
    arena.checkChildren node children = .ok () ↔
      ∀ child ∈ children,
        ∃ below, arena.live? child = some below ∧ below.parent = node.id := by
  induction children with
  | nil => simp [checkChildren]
  | cons child children induction =>
      simp only [checkChildren, Result.bind_eq_ok_iff, Result.exists_unit_iff,
        require_eq_ok_iff, node_eq_ok_iff, induction, List.forall_mem_cons,
        live?_eq_some_iff, beq_iff_eq]
      constructor
      · rintro ⟨below, found, live, parent, rest⟩
        exact ⟨⟨below, ⟨found, live⟩, parent⟩, rest⟩
      · rintro ⟨⟨below, ⟨found, live⟩, parent⟩, rest⟩
        exact ⟨below, found, live, parent, rest⟩

theorem checkSlot_eq_ok_iff {arena : Arena} {slot : Nat} {node : Node} :
    arena.checkSlot slot node = .ok () ↔
      (node.isLive = true → node.id = slot ∧
        arena.checkParent node = .ok () ∧
        arena.checkChildren node node.children = .ok () ∧
        ∃ links, arena.depth node = .ok links) := by
  unfold checkSlot
  by_cases live : node.isLive = true
  · simp [live, Result.bind_eq_ok_iff, Result.exists_unit_iff,
      require_eq_ok_iff, pure, Except.pure]
  · simp [live, pure, Except.pure]

theorem checkSlots_eq_ok_iff {arena : Arena} {first : Nat}
    {nodes : List Node} :
    arena.checkSlots first nodes = .ok () ↔
      ∀ index node, nodes[index]? = some node →
        arena.checkSlot (first + index) node = .ok () := by
  induction nodes generalizing first with
  | nil => simp [checkSlots]
  | cons head nodes induction =>
      simp only [checkSlots, Result.bind_eq_ok_iff, Result.exists_unit_iff,
        induction]
      constructor
      · rintro ⟨headPasses, rest⟩ index node found
        cases index with
        | zero =>
            simp only [List.getElem?_cons_zero, Option.some.injEq] at found
            subst found
            exact headPasses
        | succ index =>
            rw [List.getElem?_cons_succ] at found
            have passes := rest index node found
            rwa [Nat.add_right_comm, Nat.add_assoc] at passes
      · intro each
        refine ⟨each 0 head rfl, ?_⟩
        intro index node found
        have passes := each (index + 1) node (by simpa using found)
        rwa [Nat.add_right_comm, Nat.add_assoc]

/-- The checker passes exactly the arenas whose links are right. -/
theorem validate_eq_ok_iff_linked {arena : Arena} :
    arena.validate = .ok () ↔ arena.Linked := by
  have slots : (∀ index node, arena.slots.toList[index]? = some node →
        arena.checkSlot (0 + index) node = .ok ()) ↔
      ∀ id node, arena.live? id = some node → node.id = id ∧
        arena.checkParent node = .ok () ∧
        arena.checkChildren node node.children = .ok () ∧
        ∃ links, arena.depth node = .ok links := by
    simp only [checkSlot_eq_ok_iff, Nat.zero_add, Array.getElem?_toList]
    constructor
    · intro each id node live
      obtain ⟨found, alive⟩ := live?_eq_some_iff.mp live
      obtain ⟨lower, stored⟩ := node?_eq_some_iff.mp found
      have passes := each id.toNat node stored alive
      rwa [Int.toNat_of_nonneg lower] at passes
    · intro each index node stored alive
      exact each index node
        (live?_eq_some_iff.mpr ⟨by rwa [node?_natCast], alive⟩)
  simp only [validate, Result.bind_eq_ok_iff, Result.exists_unit_iff,
    require_eq_ok_iff, checkSlots_eq_ok_iff, slots, rootNode, node_eq_ok_iff, Bool.and_eq_true,
    Node.isRoot, beq_iff_eq, checkParent_eq_ok_iff, checkChildren_eq_ok_iff,
    depth_eq_ok_iff]
  constructor
  · rintro ⟨root, found, ⟨live, top⟩, each⟩
    exact
      { root := ⟨root, live?_eq_some_iff.mpr ⟨found, live⟩, top⟩
        ids := fun id node present => (each id node present).1
        oneRoot := fun id node present top => by
          obtain ⟨same, parent, _⟩ := each id node present
          rw [← same]
          exact parent.1 top
        parents := fun id node present notTop => by
          obtain ⟨same, parent, _⟩ := each id node present
          rw [same] at parent
          exact parent.2 notTop
        children := fun id node present => by
          obtain ⟨same, _, children, _⟩ := each id node present
          rw [same] at children
          exact children
        climbs := fun id node present => (each id node present).2.2.2 }
  · intro linked
    obtain ⟨root, rootLive, top⟩ := linked.root
    obtain ⟨found, live⟩ := live?_eq_some_iff.mp rootLive
    refine ⟨root, found, ⟨live, top⟩, ?_⟩
    intro id node present
    have same := linked.ids id node present
    refine ⟨same, ⟨?_, ?_⟩, ?_, linked.climbs id node present⟩
    · intro atTop
      rw [same]
      exact linked.oneRoot id node present atTop
    · rw [same]
      exact linked.parents id node present
    · rw [same]
      exact linked.children id node present

namespace Holds

theorem parent_mem {arena : Arena} {parent : Int} {tree : Tree}
    (holds : arena.Holds parent tree) {id : Int} (member : id ∈ tree.ids)
    (notRoot : id ≠ tree.id) {node : Node}
    (live : arena.live? id = some node) : node.parent ∈ tree.ids := by
  induction tree generalizing parent with
  | node label operands induction =>
      rw [Tree.ids_node, List.mem_cons] at member
      rcases member with same | inside
      · exact absurd same notRoot
      · obtain ⟨operand, position, inOperand⟩ := Tree.mem_idsAll.mp inside
        have operandHolds := holds.operand_holds operand position
        by_cases top : id = operand.id
        · subst top
          rw [operandHolds.root_live] at live
          cases live
          simp [Label.node]
        · have inParent :=
            induction operand position operandHolds inOperand top
          rw [Tree.ids_node, List.mem_cons]
          exact .inr (Tree.mem_idsAll.mpr ⟨operand, position, inParent⟩)

theorem child_mem {arena : Arena} {parent : Int} {tree : Tree}
    (holds : arena.Holds parent tree) {id : Int} (member : id ∈ tree.ids)
    {node : Node} (live : arena.live? id = some node) {child : Int}
    (listed : child ∈ node.children) : child ∈ tree.ids := by
  induction tree generalizing parent with
  | node label operands induction =>
      rw [Tree.ids_node, List.mem_cons] at member ⊢
      rcases member with rfl | inside
      · rw [holds.slot] at live
        cases live
        obtain ⟨operand, position, rfl⟩ := List.mem_map.mp listed
        exact .inr (Tree.mem_idsAll.mpr
          ⟨operand, position, operand.id_mem_ids⟩)
      · obtain ⟨operand, position, inOperand⟩ := Tree.mem_idsAll.mp inside
        have inTree := induction operand position
          (holds.operand_holds operand position) inOperand
        exact .inr (Tree.mem_idsAll.mpr ⟨operand, position, inTree⟩)

theorem climbs_of_mem {arena : Arena} {parent : Int} {tree : Tree}
    (holds : arena.Holds parent tree) {root node : Node} {links : Nat}
    (rootLive : arena.live? tree.id = some root)
    (rootClimbs : arena.Climbs root links) {id : Int}
    (member : id ∈ tree.ids) (live : arena.live? id = some node) :
    id = tree.id ∨ ∃ more, links < more ∧ arena.Climbs node more := by
  induction tree generalizing parent root links with
  | node label operands induction =>
      rw [Tree.ids_node, List.mem_cons] at member
      rcases member with same | inside
      · exact .inl same
      · right
        obtain ⟨operand, position, inOperand⟩ := Tree.mem_idsAll.mp inside
        have operandHolds := holds.operand_holds operand position
        have operandClimbs : arena.Climbs
            (operand.label.node label.id (operand.operands.map Tree.id))
            (links + 1) := .up rootLive rootClimbs
        rcases induction operand position operandHolds operandHolds.root_live
            operandClimbs inOperand with top | ⟨more, above, climbs⟩
        · subst top
          rw [operandHolds.root_live] at live
          cases live
          exact ⟨links + 1, Nat.lt_succ_self links, operandClimbs⟩
        · exact ⟨more, by omega, climbs⟩

/-- Two trees that share a slot are nested. -/
theorem nested_of_meet {arena : Arena} {leftParent rightParent : Int}
    {left right : Tree} (leftHolds : arena.Holds leftParent left)
    (rightHolds : arena.Holds rightParent right) {node : Node} {links : Nat}
    (climbs : arena.Climbs node links) {id : Int}
    (live : arena.live? id = some node) (inLeft : id ∈ left.ids)
    (inRight : id ∈ right.ids) :
    left.id ∈ right.ids ∨ right.id ∈ left.ids := by
  -- Go up from the shared slot until one of the two roots is met.
  induction climbs generalizing id with
  | @root node top =>
      by_cases leftTop : id = left.id
      · exact .inl (leftTop ▸ inRight)
      · have above := leftHolds.parent_mem inLeft leftTop live
        obtain ⟨parent, parentLive⟩ := leftHolds.live_of_mem above
        exact absurd top (live?_ne_noParent parentLive)
  | @up node parent links parentLive rest induction =>
      by_cases leftTop : id = left.id
      · exact .inl (leftTop ▸ inRight)
      · by_cases rightTop : id = right.id
        · exact .inr (rightTop ▸ inLeft)
        · exact induction parentLive
            (leftHolds.parent_mem inLeft leftTop live)
            (rightHolds.parent_mem inRight rightTop live)

/-- The slots of a tree are distinct when its root climbs to a root and no node
lists a child twice. -/
theorem nodup_ids {arena : Arena}
    (once : ∀ id node, arena.live? id = some node → node.children.Nodup)
    {parent : Int} {tree : Tree} (holds : arena.Holds parent tree)
    {links : Nat} (climbs : arena.Climbs
      (tree.label.node parent (tree.operands.map Tree.id)) links) :
    tree.ids.Nodup := by
  induction tree generalizing parent links with
  | node label operands induction =>
      have operandClimbs : ∀ operand ∈ operands, arena.Climbs
          (operand.label.node label.id (operand.operands.map Tree.id))
          (links + 1) := fun _ _ => .up holds.slot climbs
      rw [Tree.ids_node, List.nodup_cons]
      refine ⟨?_, ?_⟩
      · intro again
        obtain ⟨operand, position, inside⟩ := Tree.mem_idsAll.mp again
        have operandHolds := holds.operand_holds operand position
        rcases operandHolds.climbs_of_mem operandHolds.root_live
            (operandClimbs operand position) inside holds.slot with
          same | ⟨more, above, moreClimbs⟩
        · have slot := operandHolds.root_live
          rw [← same, holds.slot] at slot
          have oneMore := operandClimbs operand position
          rw [← Option.some.inj slot] at oneMore
          have equality := climbs.unique oneMore
          omega
        · have equality := climbs.unique moreClimbs
          omega
      · rw [Tree.idsAll_eq_flatMap, List.nodup_flatMap]
        refine ⟨fun operand position => induction operand position
          (holds.operand_holds operand position)
          (operandClimbs operand position), ?_⟩
        have distinctRoots : (operands.map Tree.id).Nodup :=
          once _ _ holds.slot
        rw [List.Nodup, List.pairwise_map] at distinctRoots
        refine distinctRoots.imp_of_mem ?_
        intro left right leftPosition rightPosition apart id inLeft inRight
        have leftHolds := holds.operand_holds left leftPosition
        have rightHolds := holds.operand_holds right rightPosition
        have leftClimbs := operandClimbs left leftPosition
        obtain ⟨shared, sharedLive⟩ := leftHolds.live_of_mem inLeft
        obtain ⟨more, sharedClimbs⟩ :
            ∃ more, arena.Climbs shared more := by
          rcases leftHolds.climbs_of_mem leftHolds.root_live leftClimbs inLeft
              sharedLive with same | ⟨more, _, moreClimbs⟩
          · rw [same, leftHolds.root_live] at sharedLive
            cases sharedLive
            exact ⟨_, leftClimbs⟩
          · exact ⟨more, moreClimbs⟩
        -- Neither root can lie in the other tree: both are equally far down.
        rcases leftHolds.nested_of_meet rightHolds sharedClimbs sharedLive
            inLeft inRight with leftInRight | rightInLeft
        · rcases rightHolds.climbs_of_mem rightHolds.root_live
              (operandClimbs right rightPosition) leftInRight
              leftHolds.root_live with same | ⟨more, above, moreClimbs⟩
          · exact apart same
          · have equality := moreClimbs.unique leftClimbs
            omega
        · rcases leftHolds.climbs_of_mem leftHolds.root_live leftClimbs
              rightInLeft rightHolds.root_live with
            same | ⟨more, above, moreClimbs⟩
          · exact apart same.symm
          · have equality :=
              moreClimbs.unique (operandClimbs right rightPosition)
            omega

theorem exists_operands {arena : Arena} {parent : Int}
    {children : List Int}
    (each : ∀ child ∈ children,
      ∃ tree : Tree, tree.id = child ∧ arena.Holds parent tree) :
    ∃ trees : List Tree, trees.map Tree.id = children ∧
      ∀ tree ∈ trees, arena.Holds parent tree := by
  induction children with
  | nil => exact ⟨[], rfl, by simp⟩
  | cons child children induction =>
      obtain ⟨head, tail⟩ := List.forall_mem_cons.mp each
      obtain ⟨tree, root, holds⟩ := head
      obtain ⟨trees, roots, allHold⟩ := induction tail
      exact ⟨tree :: trees, by simp [root, roots],
        List.forall_mem_cons.mpr ⟨holds, allHold⟩⟩

theorem exists_node {arena : Arena} {id : Int} {node : Node}
    (live : arena.live? id = some node) (same : node.id = id)
    (each : ∀ child ∈ node.children,
      ∃ tree : Tree, tree.id = child ∧ arena.Holds id tree) :
    ∃ tree : Tree, tree.id = id ∧ arena.Holds node.parent tree := by
  obtain ⟨trees, roots, allHold⟩ := exists_operands each
  refine ⟨.node (.ofNode node) trees, same, .node ?_ ?_⟩
  · rw [roots, Label.node_ofNode]
    simpa [Label.ofNode, same] using live
  · simpa [Label.ofNode, same] using allHold

end Holds

namespace Linked

theorem live_of_mem {arena : Arena} (linked : arena.Linked) {node : Node}
    (member : node ∈ arena.liveNodes) : arena.live? node.id = some node := by
  obtain ⟨id, live⟩ := mem_liveNodes_iff.mp member
  rw [linked.ids id node live]
  exact live

theorem id_ne {arena : Arena} (linked : arena.Linked) {first second : Node}
    (firstMember : first ∈ arena.liveNodes)
    (secondMember : second ∈ arena.liveNodes) (distinct : first ≠ second) :
    first.id ≠ second.id := by
  intro same
  have firstLive := linked.live_of_mem firstMember
  rw [same, linked.live_of_mem secondMember] at firstLive
  exact distinct (Option.some.inj firstLive).symm

theorem nodup_children {arena : Arena} (linked : arena.Linked) {id : Int}
    {node : Node} (live : arena.live? id = some node) :
    node.children.Nodup := by
  rw [List.nodup_iff_count_le_one]
  intro child
  by_cases listed : child ∈ node.children
  · obtain ⟨below, belowLive, up⟩ := linked.children id node live child listed
    have notTop : below.parent ≠ Node.noParent := by
      rw [up]
      exact live?_ne_noParent live
    obtain ⟨parent, parentLive, once⟩ :=
      linked.parents child below belowLive notTop
    rw [up, live] at parentLive
    cases parentLive
    exact Nat.le_of_eq once
  · rw [List.count_eq_zero_of_not_mem listed]
    exact Nat.zero_le 1

theorem mem_children {arena : Arena} (linked : arena.Linked) {id : Int}
    {node parent : Node} (live : arena.live? id = some node)
    (parentLive : arena.live? node.parent = some parent) :
    id ∈ parent.children := by
  obtain ⟨found, foundLive, once⟩ :=
    linked.parents id node live (live?_ne_noParent parentLive)
  rw [parentLive] at foundLive
  cases foundLive
  apply List.count_pos_iff.mp
  rw [once]
  exact Nat.one_pos

/-- No node is its own parent: it would be one link nearer to the root than
it is. -/
theorem parent_ne_id {arena : Arena} (linked : arena.Linked) {id : Int}
    {node : Node} (live : arena.live? id = some node) : node.parent ≠ id := by
  intro same
  obtain ⟨links, _, climbs⟩ := linked.climbs id node live
  cases climbs with
  | root top => exact live?_ne_noParent live (same.symm.trans top)
  | up aboveLive rest =>
      rw [same, live] at aboveLive
      cases aboveLive
      have longer : arena.Climbs node _ := .up (same ▸ live) rest
      have equality := longer.unique rest
      omega

/-- Below every live node of a linked arena hangs a tree.  The induction is on
the number of links that the bound of the depth still allows. -/
theorem exists_holds {arena : Arena} (linked : arena.Linked) (left : Nat)
    {id : Int} {node : Node} {links : Nat}
    (live : arena.live? id = some node) (climbs : arena.Climbs node links)
    (enough : arena.size + 2 ≤ links + left) :
    ∃ tree : Tree, tree.id = id ∧ arena.Holds node.parent tree := by
  induction left generalizing id node links with
  | zero =>
      obtain ⟨actual, bounded, actualClimbs⟩ := linked.climbs id node live
      have equality := climbs.unique actualClimbs
      omega
  | succ left induction =>
      have each : ∀ child ∈ node.children,
          ∃ tree : Tree, tree.id = child ∧ arena.Holds id tree := by
        intro child listed
        obtain ⟨below, belowLive, up⟩ :=
          linked.children id node live child listed
        have belowClimbs : arena.Climbs below (links + 1) :=
          .up (by rw [up]; exact live) climbs
        rw [← up]
        exact induction belowLive belowClimbs (by omega)
      exact Holds.exists_node live (linked.ids id node live) each

theorem exists_presents {arena : Arena} (linked : arena.Linked) :
    ∃ tree, arena.Presents tree := by
  obtain ⟨rootNode, rootLive, top⟩ := linked.root
  obtain ⟨tree, root, holds⟩ :=
    linked.exists_holds (arena.size + 2) rootLive (.root top) (by omega)
  rw [top] at holds
  refine ⟨tree,
    { root := root.symm
      holds := holds
      distinct := holds.nodup_ids (fun _ _ => linked.nodup_children)
        (.root rfl)
      covered := ?_ }⟩
  intro id node live
  obtain ⟨links, climbs⟩ : ∃ links, arena.Climbs node links := by
    obtain ⟨links, _, climbs⟩ := linked.climbs id node live
    exact ⟨links, climbs⟩
  induction climbs generalizing id with
  | root atTop =>
      rw [linked.oneRoot id _ live atTop, ← root]
      exact tree.id_mem_ids
  | up parentLive _ induction =>
      exact holds.child_mem (induction _ parentLive) parentLive
        (linked.mem_children live parentLive)

end Linked

theorem HoldsAround.climbs {arena : Arena} {context : Context} {hole : Int}
    (around : arena.HoldsAround context hole) {node : Node}
    (up : node.parent = context.parent) :
    arena.Climbs node context.length := by
  induction context generalizing hole node with
  | nil => exact .root up
  | cons frame outer induction =>
      obtain ⟨slot, _, _, rest⟩ := around
      rw [Context.parent_cons] at up
      exact .up (by rw [up]; exact slot) (induction rest rfl)

namespace Presents

theorem linked {arena : Arena} {tree : Tree}
    (presents : arena.Presents tree) : arena.Linked := by
  have size := presents.holds.length_le_size presents.distinct
  refine
    { root := ⟨_, by rw [presents.root]; exact presents.holds.root_live, rfl⟩
      ids := ?_
      oneRoot := ?_
      parents := ?_
      children := ?_
      climbs := ?_ }
  all_goals
    intro id node live
    obtain ⟨context, label, operands, rfl, rfl, rfl⟩ :=
      presents.exists_plug live
    obtain ⟨around, holds⟩ := holds_plug_iff.mp presents.holds
  · rfl
  · intro top
    cases context with
    | nil => exact presents.root.symm
    | cons frame outer => exact absurd top (live?_ne_noParent around.1)
  · intro notTop
    cases context with
    | nil => exact absurd rfl notTop
    | cons frame outer =>
        refine ⟨_, around.1, ?_⟩
        have distinct : (Context.plug outer
            (frame.fill (.node label operands))).ids.Nodup := presents.distinct
        have roots := Tree.nodup_roots (Context.nodup_plug_iff.mp distinct).1
        refine List.count_eq_one_of_mem ?_ ?_
        · simpa using roots
        · simp
  · intro child listed
    obtain ⟨operand, position, rfl⟩ := List.mem_map.mp listed
    exact ⟨_, (holds.operand_holds operand position).root_live, rfl⟩
  · refine ⟨context.length, ?_, around.climbs rfl⟩
    have short := context.length_le_ids
    have whole := (Context.ids_plug context (.node label operands)).length_eq
    rw [List.length_append] at whole
    omega

end Presents

/-- An arena passes the check exactly when its live slots present a tree. -/
theorem validate_eq_ok_iff {arena : Arena} :
    arena.validate = .ok () ↔ ∃ tree, arena.Presents tree := by
  rw [validate_eq_ok_iff_linked]
  constructor
  · intro linked
    exact linked.exists_presents
  · rintro ⟨tree, presents⟩
    exact presents.linked

theorem Linked.pairwise_liveNodes {arena : Arena} (linked : arena.Linked) :
    arena.liveNodes.Pairwise fun first second => first.id < second.id := by
  have ids : ∀ slot (inside : slot < arena.slots.toList.length),
      arena.slots.toList[slot].isLive = true →
        arena.slots.toList[slot].id = slot := by
    intro slot inside alive
    apply linked.ids
    rw [live?_eq_some_iff, node?_natCast, ← Array.getElem?_toList]
    exact ⟨List.getElem?_eq_getElem inside, alive⟩
  unfold liveNodes
  rw [List.pairwise_filter, List.pairwise_iff_getElem]
  intro first second firstInside secondInside before firstAlive secondAlive
  rw [ids first firstInside firstAlive, ids second secondInside secondAlive]
  omega

theorem Presents.length_ids_le {arena : Arena} {tree : Tree}
    (presents : arena.Presents tree) :
    tree.ids.length ≤ arena.liveNodes.length := by
  rw [← List.length_map Node.id]
  apply (presents.distinct.subperm ?_).length_le
  intro id member
  obtain ⟨node, live⟩ := presents.holds.live_of_mem member
  exact List.mem_map.mpr ⟨node, mem_liveNodes_iff.mpr ⟨id, live⟩,
    presents.linked.ids id node live⟩

theorem Presents.mem_before {arena : Arena} {tree : Tree}
    (presents : arena.Presents tree)
    {before after : List Node} {node other : Node}
    (split : arena.liveNodes = before ++ node :: after)
    (live : arena.live? other.id = some other) (less : other.id < node.id) :
    other ∈ before := by
  have sorted := presents.linked.pairwise_liveNodes
  have member : other ∈ arena.liveNodes := mem_liveNodes_iff.mpr ⟨_, live⟩
  rw [split, List.pairwise_append, List.pairwise_cons] at sorted
  obtain ⟨_, ⟨behind, _⟩, _⟩ := sorted
  rw [split, List.mem_append, List.mem_cons] at member
  rcases member with first | rfl | last
  · exact first
  · exact absurd less (Int.lt_irrefl _)
  · have greater := behind other last
    omega

end FormulaEdit.Arena
