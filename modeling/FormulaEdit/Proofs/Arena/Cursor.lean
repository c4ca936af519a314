import FormulaEdit.Arena.Cursor
import FormulaEdit.Proofs.Arena.Editing
import FormulaEdit.Proofs.Tree.Laminar
import Mathlib.Data.List.Pairwise
import Mathlib.Logic.Relation

/-!
# Looking up a position

Where the spans of an arena lie in one another like its nodes, the nodes that
contain a position stand one above the other.  The lookup finds the lowest of
them, so no two candidates are ever equally deep.
-/

namespace FormulaEdit.Arena

/-! ## Ancestors -/

/-- A live node names another live one as its parent. -/
def IsParent (arena : Arena) (above below : Int) : Prop :=
  ∃ parent child, arena.live? above = some parent ∧
    arena.live? below = some child ∧ child.parent = above

/-- A node is a proper ancestor of another. -/
def Above (arena : Arena) : (above below : Int) → Prop :=
  Relation.TransGen arena.IsParent

theorem Linked.exists_listed {arena : Arena} (linked : arena.Linked)
    {above below : Int} (link : arena.IsParent above below) :
    ∃ parent, arena.live? above = some parent ∧ below ∈ parent.children := by
  obtain ⟨parent, child, parentLive, childLive, up⟩ := link
  refine ⟨parent, parentLive, linked.mem_children childLive ?_⟩
  rw [up]
  exact parentLive

namespace Holds

variable {arena : Arena}

theorem above {parent : Int} {tree : Tree} (holds : arena.Holds parent tree)
    {id : Int} (member : id ∈ Tree.idsAll tree.operands) :
    arena.Above tree.id id := by
  induction tree generalizing parent with
  | node label operands induction =>
      obtain ⟨operand, position, inside⟩ := Tree.mem_idsAll.mp member
      have operandHolds := holds.operand_holds operand position
      have link : arena.IsParent label.id operand.id :=
        ⟨_, _, holds.slot, operandHolds.root_live, rfl⟩
      cases operand with
      | node operandLabel below =>
          rw [Tree.ids_node, List.mem_cons] at inside
          rcases inside with rfl | deeper
          · exact .single link
          · exact .head link (induction _ position operandHolds deeper)

theorem mem_of_above (linked : arena.Linked) {parent : Int} {label : Label}
    {operands : List Tree} (holds : arena.Holds parent (.node label operands))
    {id : Int} (above : arena.Above label.id id) :
    id ∈ Tree.idsAll operands := by
  induction above with
  | single link =>
      obtain ⟨node, live, listed⟩ := linked.exists_listed link
      rw [holds.slot] at live
      cases live
      exact (Tree.map_id_sublist_idsAll operands).subset listed
  | tail _ link induction =>
      obtain ⟨operand, position, inside⟩ := Tree.mem_idsAll.mp induction
      obtain ⟨node, live, listed⟩ := linked.exists_listed link
      exact Tree.mem_idsAll.mpr ⟨operand, position,
        (holds.operand_holds operand position).child_mem inside live listed⟩

theorem hasSpan {parent : Int} {tree : Tree} (holds : arena.Holds parent tree)
    {id : Int} (member : id ∈ tree.ids) {node : Node}
    (live : arena.live? id = some node) (known : node.span.isKnown = true) :
    tree.HasSpan node.span := by
  induction tree generalizing parent with
  | node label operands induction =>
      rw [Tree.ids_node, List.mem_cons] at member
      rcases member with rfl | inside
      · rw [holds.slot] at live
        cases live
        exact .here known
      · obtain ⟨operand, position, inOperand⟩ := Tree.mem_idsAll.mp inside
        exact .inner position (induction operand position
          (holds.operand_holds operand position) inOperand)

/-- Two nodes of a laminar tree stand one above the other, or their spans
share no position. -/
theorem above_or_apart {parent : Int} {tree : Tree}
    (holds : arena.Holds parent tree) (laminar : tree.Laminar)
    {first second : Int} (inFirst : first ∈ tree.ids)
    (inSecond : second ∈ tree.ids) (distinct : first ≠ second)
    {firstNode secondNode : Node} (firstLive : arena.live? first = some firstNode)
    (secondLive : arena.live? second = some secondNode)
    (firstKnown : firstNode.span.isKnown = true)
    (secondKnown : secondNode.span.isKnown = true) :
    arena.Above first second ∨ arena.Above second first ∨
      firstNode.span.Apart secondNode.span := by
  induction tree generalizing parent with
  | node label operands induction =>
      rw [Tree.ids_node, List.mem_cons] at inFirst inSecond
      rcases inFirst with rfl | firstBelow
      · rcases inSecond with rfl | secondBelow
        · exact absurd rfl distinct
        · exact .inl (holds.above secondBelow)
      rcases inSecond with rfl | secondBelow
      · exact .inr (.inl (holds.above firstBelow))
      obtain ⟨left, leftPosition, inLeft⟩ := Tree.mem_idsAll.mp firstBelow
      obtain ⟨right, rightPosition, inRight⟩ := Tree.mem_idsAll.mp secondBelow
      have leftHolds := holds.operand_holds left leftPosition
      have rightHolds := holds.operand_holds right rightPosition
      by_cases same : left = right
      · subst same
        exact induction left leftPosition leftHolds
          (laminar.operand left leftPosition) inLeft inRight
      · right
        right
        have apart := laminar.root.apart.forall leftPosition rightPosition same
        exact apart _ _ (leftHolds.hasSpan inLeft firstLive firstKnown)
          (rightHolds.hasSpan inRight secondLive secondKnown)

end Holds

/-! ## Laminar arenas -/

/-- An arena presents a tree whose spans lie in one another like its nodes. -/
def Nested (arena : Arena) : Prop :=
  ∃ tree, arena.Presents tree ∧ tree.Laminar

namespace Nested

variable {arena : Arena}

theorem linked (nested : arena.Nested) : arena.Linked := by
  obtain ⟨tree, presents, _⟩ := nested
  exact presents.linked

theorem occupied (nested : arena.Nested) {id : Int} {node : Node}
    (live : arena.live? id = some node) (known : node.span.isKnown = true) :
    ∃ position, node.span.contains position = true := by
  obtain ⟨tree, presents, laminar⟩ := nested
  obtain ⟨context, label, operands, rfl, _, rfl⟩ := presents.exists_plug live
  exact laminar.of_plug.root.occupied known

theorem strictlyContains (nested : arena.Nested) {first second : Int}
    {firstNode secondNode : Node} (above : arena.Above first second)
    (firstLive : arena.live? first = some firstNode)
    (secondLive : arena.live? second = some secondNode)
    (firstKnown : firstNode.span.isKnown = true)
    (secondKnown : secondNode.span.isKnown = true) :
    firstNode.span.StrictlyContains secondNode.span := by
  have linked := nested.linked
  obtain ⟨tree, presents, laminar⟩ := nested
  obtain ⟨context, label, operands, rfl, rfl, rfl⟩ :=
    presents.exists_plug firstLive
  have holds := (holds_plug_iff.mp presents.holds).2
  obtain ⟨operand, position, inside⟩ :=
    Tree.mem_idsAll.mp (holds.mem_of_above linked above)
  have has := (holds.operand_holds operand position).hasSpan inside secondLive
    secondKnown
  exact laminar.of_plug.root.encloses firstKnown operand position _ has

theorem above_or_apart (nested : arena.Nested) {first second : Int}
    {firstNode secondNode : Node} (distinct : first ≠ second)
    (firstLive : arena.live? first = some firstNode)
    (secondLive : arena.live? second = some secondNode)
    (firstKnown : firstNode.span.isKnown = true)
    (secondKnown : secondNode.span.isKnown = true) :
    arena.Above first second ∨ arena.Above second first ∨
      firstNode.span.Apart secondNode.span := by
  obtain ⟨tree, presents, laminar⟩ := nested
  exact presents.holds.above_or_apart laminar
    (presents.covered first _ firstLive) (presents.covered second _ secondLive)
    distinct firstLive secondLive firstKnown secondKnown

theorem above_iff (nested : arena.Nested) {first second : Int}
    {firstNode secondNode : Node} (distinct : first ≠ second)
    (firstLive : arena.live? first = some firstNode)
    (secondLive : arena.live? second = some secondNode)
    (firstKnown : firstNode.span.isKnown = true)
    (secondKnown : secondNode.span.isKnown = true) :
    arena.Above first second ↔
      firstNode.span.StrictlyContains secondNode.span := by
  constructor
  · intro above
    exact nested.strictlyContains above firstLive secondLive firstKnown
      secondKnown
  · intro contains
    rcases nested.above_or_apart distinct firstLive secondLive firstKnown
      secondKnown with above | below | apart
    · exact above
    · -- Each of the two spans would have a position that the other lacks.
      have back := nested.strictlyContains below secondLive firstLive
        secondKnown firstKnown
      obtain ⟨position, inFirst, notInSecond⟩ := contains.2
      rw [back.1 position inFirst] at notInSecond
      cases notInSecond
    · obtain ⟨position, inSecond⟩ := nested.occupied secondLive secondKnown
      rw [apart position (contains.1 position inSecond)] at inSecond
      cases inSecond

end Nested

/-! ## Depths -/

theorem Climbs.of_above {arena : Arena} {first second : Int}
    (above : arena.Above first second) {firstNode secondNode : Node}
    (firstLive : arena.live? first = some firstNode)
    (secondLive : arena.live? second = some secondNode) {links : Nat}
    (climbs : arena.Climbs firstNode links) :
    ∃ more, links < more ∧ arena.Climbs secondNode more := by
  induction above generalizing secondNode with
  | single link =>
      obtain ⟨parent, child, parentLive, childLive, up⟩ := link
      rw [firstLive] at parentLive
      cases parentLive
      rw [secondLive] at childLive
      cases childLive
      exact ⟨links + 1, Nat.lt_succ_self links, .up (up ▸ firstLive) climbs⟩
  | tail _ link induction =>
      obtain ⟨parent, child, parentLive, childLive, up⟩ := link
      rw [secondLive] at childLive
      cases childLive
      obtain ⟨more, deeper, parentClimbs⟩ := induction parentLive
      exact ⟨more + 1, Nat.lt_succ_of_lt deeper,
        .up (up ▸ parentLive) parentClimbs⟩

theorem Linked.exists_depth {arena : Arena} (linked : arena.Linked)
    {node : Node} (member : node ∈ arena.liveNodes) :
    ∃ depth, arena.depth node = .ok depth := by
  obtain ⟨depth, bound, climbs⟩ :=
    linked.climbs _ _ (linked.live_of_mem member)
  exact ⟨depth, depth_eq_ok_iff.mpr ⟨bound, climbs⟩⟩

theorem Linked.depth_lt {arena : Arena} (linked : arena.Linked)
    {first second : Node} (firstMember : first ∈ arena.liveNodes)
    (secondMember : second ∈ arena.liveNodes)
    (above : arena.Above first.id second.id) {firstDepth secondDepth : Nat}
    (firstDeep : arena.depth first = .ok firstDepth)
    (secondDeep : arena.depth second = .ok secondDepth) :
    firstDepth < secondDepth := by
  obtain ⟨more, deeper, climbs⟩ := Climbs.of_above above
    (linked.live_of_mem firstMember) (linked.live_of_mem secondMember)
    (depth_eq_ok_iff.mp firstDeep).2
  rw [(depth_eq_ok_iff.mp secondDeep).2.unique climbs]
  exact deeper

/-! ## The lookup -/

/-- What the search has found among some nodes: none that contains the
position, or a deepest one. -/
inductive Finds (arena : Arena) (position : Position) (nodes : List Node) :
    Option (Node × Nat) → Prop where
  | nothing
      (outside : ∀ node ∈ nodes, node.span.contains position = false) :
      Finds arena position nodes none
  | deepest {found : Node} {depth : Nat} (member : found ∈ nodes)
      (inside : found.span.contains position = true)
      (deep : arena.depth found = .ok depth)
      (others : ∀ node ∈ nodes, node.span.contains position = true →
        ∃ other, arena.depth node = .ok other ∧ other ≤ depth) :
      Finds arena position nodes (some (found, depth))

namespace Finds

variable {arena : Arena} {position : Position} {nodes : List Node}
  {best : Option (Node × Nat)} {node : Node}

theorem pass (finds : arena.Finds position nodes best)
    (outside : node.span.contains position = false) :
    arena.Finds position (nodes ++ [node]) best := by
  cases finds with
  | nothing others =>
      apply Finds.nothing
      rw [List.forall_mem_append, List.forall_mem_singleton]
      exact ⟨others, outside⟩
  | deepest member inside deep others =>
      apply Finds.deepest (List.mem_append_left _ member) inside deep
      rw [List.forall_mem_append, List.forall_mem_singleton]
      refine ⟨others, ?_⟩
      intro contains
      rw [outside] at contains
      cases contains

theorem meet (finds : arena.Finds position nodes best)
    (inside : node.span.contains position = true) {depth : Nat}
    (deep : arena.depth node = .ok depth) :
    arena.Finds position (nodes ++ [node])
      (if (match best with
        | none => true
        | some (_, bestDepth) => decide (bestDepth < depth)) then
          some (node, depth) else best) := by
  have last : node ∈ nodes ++ [node] :=
    List.mem_append_right nodes List.mem_cons_self
  cases finds with
  | nothing others =>
      apply Finds.deepest last inside deep
      rw [List.forall_mem_append, List.forall_mem_singleton]
      refine ⟨?_, fun _ => ⟨depth, deep, Nat.le_refl depth⟩⟩
      intro other member contains
      rw [others other member] at contains
      cases contains
  | @deepest found bestDepth member foundInside foundDeep others =>
      simp only [decide_eq_true_eq]
      split
      next deeper =>
          apply Finds.deepest last inside deep
          rw [List.forall_mem_append, List.forall_mem_singleton]
          refine ⟨?_, fun _ => ⟨depth, deep, Nat.le_refl depth⟩⟩
          intro other position contains
          obtain ⟨bound, otherDeep, small⟩ := others other position contains
          exact ⟨bound, otherDeep, by omega⟩
      next notDeeper =>
          apply Finds.deepest (List.mem_append_left _ member) foundInside
            foundDeep
          rw [List.forall_mem_append, List.forall_mem_singleton]
          exact ⟨others, fun _ => ⟨depth, deep, by omega⟩⟩

end Finds

theorem exists_deepest {arena : Arena} {position : Position}
    {before after : List Node} {best : Option (Node × Nat)}
    (finds : arena.Finds position before best)
    (deep : ∀ node ∈ after, ∃ depth, arena.depth node = .ok depth) :
    ∃ result, arena.deepest position best after = .ok result ∧
      arena.Finds position (before ++ after) result := by
  induction after generalizing before best with
  | nil =>
      refine ⟨best, by rw [Arena.deepest], ?_⟩
      rw [List.append_nil]
      exact finds
  | cons node after induction =>
      obtain ⟨⟨depth, here⟩, later⟩ := List.forall_mem_cons.mp deep
      rw [Arena.deepest, ← List.singleton_append, ← List.append_assoc]
      cases inside : node.span.contains position with
      | false =>
          rw [if_neg Bool.false_ne_true]
          exact induction (finds.pass inside) later
      | true =>
          rw [if_pos rfl, here]
          exact induction (finds.meet inside here) later

namespace Nested

variable {arena : Arena}

theorem above_of_contains (nested : arena.Nested) {position : Position}
    {first second : Node} (firstMember : first ∈ arena.liveNodes)
    (secondMember : second ∈ arena.liveNodes)
    (inFirst : first.span.contains position = true)
    (inSecond : second.span.contains position = true)
    (distinct : first ≠ second) :
    arena.Above first.id second.id ∨ arena.Above second.id first.id := by
  have firstLive := nested.linked.live_of_mem firstMember
  have secondLive := nested.linked.live_of_mem secondMember
  have apartIds := nested.linked.id_ne firstMember secondMember distinct
  rcases nested.above_or_apart apartIds firstLive secondLive
    (Span.isKnown_of_contains inFirst) (Span.isKnown_of_contains inSecond) with
    above | below | apart
  · exact .inl above
  · exact .inr below
  · rw [apart position inFirst] at inSecond
    cases inSecond

/-- The lookup never fails.  It finds nothing where no live span is, and
otherwise the node that all others at the position are above. -/
theorem findAt_cases (nested : arena.Nested) (position : Position) :
    (arena.findAt position = .ok none ∧
      ∀ node ∈ arena.liveNodes, node.span.contains position = false) ∨
    ∃ found ∈ arena.liveNodes, arena.findAt position = .ok (some found) ∧
      ∀ node ∈ arena.liveNodes, node.span.contains position = true ↔
        node = found ∨
          arena.Above node.id found.id ∧ node.span.isKnown = true := by
  have linked := nested.linked
  have start : arena.Finds position [] none := .nothing (by simp)
  have deep : ∀ node ∈ arena.liveNodes,
      ∃ depth, arena.depth node = .ok depth := by
    intro node member
    exact linked.exists_depth member
  obtain ⟨result, searched, finds⟩ := exists_deepest start deep
  have answer : arena.findAt position = .ok (result.map (·.1)) := by
    rw [findAt, searched]
    rfl
  rw [List.nil_append] at finds
  cases finds with
  | nothing outside => exact .inl ⟨answer, outside⟩
  | @deepest found depth member inside foundDeep others =>
      refine .inr ⟨found, member, answer, ?_⟩
      intro node nodeMember
      constructor
      · intro contains
        by_cases same : node = found
        · exact .inl same
        right
        refine ⟨?_, Span.isKnown_of_contains contains⟩
        rcases nested.above_of_contains nodeMember member contains inside same
          with above | below
        · exact above
        · obtain ⟨other, nodeDeep, small⟩ := others node nodeMember contains
          have deeper := linked.depth_lt member nodeMember below foundDeep
            nodeDeep
          omega
      · rintro (rfl | ⟨above, known⟩)
        · exact inside
        · have contains := nested.strictlyContains above
            (linked.live_of_mem nodeMember) (linked.live_of_mem member) known
            (Span.isKnown_of_contains inside)
          exact contains.1 position inside

theorem findAt_eq_none_iff (nested : arena.Nested) (position : Position) :
    arena.findAt position = .ok none ↔
      ∀ node ∈ arena.liveNodes, node.span.contains position = false := by
  rcases nested.findAt_cases position with
    ⟨answer, outside⟩ | ⟨found, member, answer, containing⟩
  · exact ⟨fun _ => outside, fun _ => answer⟩
  · constructor
    · intro nothing
      rw [nothing] at answer
      cases answer
    · intro outside
      have inside := (containing found member).mpr (.inl rfl)
      rw [outside found member] at inside
      cases inside

theorem exists_found (nested : arena.Nested) {position : Position}
    {node : Node} (member : node ∈ arena.liveNodes)
    (inside : node.span.contains position = true) :
    ∃ found ∈ arena.liveNodes, arena.findAt position = .ok (some found) ∧
      ∀ node ∈ arena.liveNodes, node.span.contains position = true ↔
        node = found ∨
          arena.Above node.id found.id ∧ node.span.isKnown = true := by
  rcases nested.findAt_cases position with ⟨_, outside⟩ | found
  · rw [outside node member] at inside
    cases inside
  · exact found

theorem eq_of_depth (nested : arena.Nested) {position : Position}
    {first second : Node} (firstMember : first ∈ arena.liveNodes)
    (secondMember : second ∈ arena.liveNodes)
    (inFirst : first.span.contains position = true)
    (inSecond : second.span.contains position = true)
    (equallyDeep : arena.depth first = arena.depth second) :
    first = second := by
  have linked := nested.linked
  obtain ⟨depth, secondDeep⟩ := linked.exists_depth secondMember
  rw [secondDeep] at equallyDeep
  by_contra distinct
  rcases nested.above_of_contains firstMember secondMember inFirst inSecond
    distinct with above | below
  · exact Nat.lt_irrefl depth (linked.depth_lt firstMember secondMember above
      equallyDeep secondDeep)
  · exact Nat.lt_irrefl depth (linked.depth_lt secondMember firstMember below
      secondDeep equallyDeep)

end Nested

end FormulaEdit.Arena
