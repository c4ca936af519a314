import FormulaEdit.Proofs.Arena.Editing
import FormulaEdit.Proofs.Rule.Changes
import FormulaEdit.Proofs.Tree.Rewriting

/-!
# Rules that work in place

Toggling a flag, flipping a comparison and moving an operand change one slot
and no link between slots.  Each of them, when it reports a change, leaves an
arena that presents the rewritten tree.
-/

namespace FormulaEdit.Rule

/-- A rule reported a change, and its arena presents the rewritten tree. -/
def Rewrote (arena : Arena) (before : Tree) (action : Action)
    (params : Json.Members) (focus : Int) (outcome : Outcome) : Prop :=
  outcome.changed = true ∧ ∃ after, outcome.arena.Presents after ∧
    Rewrites params focus arena.size action before after

theorem Rewrote.edited {arena edited : Arena} {before after : Tree}
    {action : Action} {params : Json.Members} {focus : Int}
    (presents : edited.Presents after)
    (rewrites : Rewrites params focus arena.size action before after) :
    Rewrote arena before action params focus (.edited edited) :=
  ⟨rfl, after, presents.refresh, rewrites⟩

theorem guarded_of_decided {arena : Arena} {focus : Int}
    {condition : Condition} {edit : Node → Result Outcome} {node : Node}
    {value : Bool} (live : arena.live? focus = some node)
    (decided : condition.holds arena node = .ok value) :
    guarded arena focus condition edit =
      if value then edit node else .ok (.unchanged arena) := by
  rw [guarded, Arena.node_of_live live]
  simp only [bind, Except.bind, decided]
  rfl

theorem guarded_always {arena : Arena} {focus : Int}
    {edit : Node → Result Outcome} {node : Node}
    (live : arena.live? focus = some node) :
    guarded arena focus .always edit = edit node := by
  rw [guarded_of_decided live rfl, if_pos rfl]

theorem change_at_live {action : Action} {arena : Arena} {focus : Int}
    {node : Node} {params : Json.Members} {condition : Condition}
    {outcome : Outcome} (live : arena.live? focus = some node)
    (ran : action.run arena focus params condition = .ok outcome) :
    Change arena focus node params action outcome := by
  obtain ⟨again, found, change⟩ := Action.changed_of_run ran
  rw [Arena.node?_of_live live] at found
  cases found
  exact change

theorem live?_update_live {arena : Arena} {id : Int} {node : Node}
    {change : Node → Node} (live : arena.live? id = some node)
    (keepsId : ∀ node, (change node).id = node.id) (other : Int) :
    (arena.update id change).live? other =
      if other = id then some (change node) else arena.live? other := by
  rw [arena.live?_update id other keepsId]
  by_cases same : other = id
  · simp [same, live]
  · simp [same]

theorem toggle_rewrote (flag : Flag) {arena : Arena} {tree : Tree}
    {focus : Int} {node : Node} (params : Json.Members)
    (presents : arena.Presents tree)
    (live : arena.live? focus = some node) :
    Rewrote arena tree flag.toggle params focus
      (.edited (arena.update focus flag.toggle.touched)) := by
  obtain ⟨context, label, operands, rfl, rfl, rfl⟩ :=
    presents.exists_plug live
  have slots := live?_update_live live flag.toggle.id_touched
  have root := arena.root_update label.id flag.toggle.touched
  cases flag with
  | breaksLine =>
      refine .edited ?_ (.toggleBreak context operands rfl)
      exact presents.relabel rfl (List.Perm.refl operands) root slots
  | bracketed =>
      refine .edited ?_ (.toggleBracket context operands rfl)
      exact presents.relabel rfl (List.Perm.refl operands) root slots

theorem flippedComparison?_eq_some_iff {token flipped : String} :
    flippedComparison? token = some flipped ↔
      (token, flipped) ∈
        [("=", "="), ("<", ">="), (">", "<="), (">=", "<"), ("<=", ">")] := by
  unfold flippedComparison?
  grind

theorem flip_rewrote {arena : Arena} {tree : Tree} {focus : Int}
    {node : Node} {token : String} {first second : Int}
    (params : Json.Members) (presents : arena.Presents tree)
    (live : arena.live? focus = some node)
    (flips : flippedComparison? node.token = some token)
    (binary : node.children = [first, second]) :
    Rewrote arena tree .flipComparison params focus
      (.edited (arena.update focus fun node =>
        { node with token := token, children := [second, first] })) := by
  obtain ⟨context, label, operands, rfl, rfl, rfl⟩ :=
    presents.exists_plug live
  obtain ⟨left, right, rfl, rfl, rfl⟩ : ∃ left right : Tree,
      operands = [left, right] ∧ left.id = first ∧ right.id = second := by
    simpa [List.map_eq_cons_iff] using binary
  refine .edited ?_ (.flip context left right rfl
    (flippedComparison?_eq_some_iff.mp flips))
  exact presents.relabel rfl (List.Perm.swap left right [])
    (arena.root_update _ _)
    (live?_update_live live fun _ => rfl)

theorem swapNext_append (before : List Int) (first second : Int)
    (after : List Int) :
    swapNext before.length (before ++ first :: second :: after) =
      before ++ second :: first :: after := by
  induction before with
  | nil => rfl
  | cons head before induction => simp [swapNext, induction]

theorem indexIn_append {before after : List Int} {id : Int}
    (first : id ∉ before) :
    indexIn id (before ++ id :: after) = .ok before.length := by
  have found : (before ++ id :: after).findIdx? (· == id) =
      some before.length := by
    rw [List.findIdx?_append]
    have none : before.findIdx? (· == id) = none := by
      rw [List.findIdx?_eq_none_iff]
      intro other member
      simp only [beq_eq_false_iff_ne]
      rintro rfl
      exact first member
    simp [none, List.findIdx?_cons]
  simp [indexIn, found]

theorem moved?_left_eq_some {before after moved : List Int} {id : Int}
    (result : moved? .left before.length (before ++ id :: after) =
      some moved) :
    ∃ front neighbour, before = front ++ [neighbour] ∧
      moved = front ++ id :: neighbour :: after := by
  rcases List.eq_nil_or_concat before with rfl | ⟨front, neighbour, rfl⟩
  · simp [moved?] at result
  · refine ⟨front, neighbour, by simp, ?_⟩
    have shape : front.concat neighbour ++ id :: after =
        front ++ neighbour :: id :: after := by simp
    rw [shape] at result
    simp only [moved?, List.length_concat, Nat.add_one_ne_zero, if_false,
      Nat.add_sub_cancel, swapNext_append, Option.some.injEq] at result
    exact result.symm

theorem moved?_right_eq_some {before after moved : List Int} {id : Int}
    (result : moved? .right before.length (before ++ id :: after) =
      some moved) :
    ∃ neighbour rest, after = neighbour :: rest ∧
      moved = before ++ neighbour :: id :: rest := by
  cases after with
  | nil => simp [moved?] at result
  | cons neighbour rest =>
      refine ⟨neighbour, rest, rfl, ?_⟩
      simp only [moved?, List.length_append, List.length_cons] at result
      rw [if_pos (by omega), swapNext_append, Option.some.injEq] at result
      exact result.symm

/-- How parameters write a direction. -/
def Direction.letter : Direction → String
  | .left => "l"
  | .right => "r"

theorem Direction.ofParams_eq_ok {params : Json.Members}
    {direction : Direction} (read : Direction.ofParams params = .ok direction) :
    params.get? "direction" = some (.str direction.letter) := by
  unfold Direction.ofParams at read
  cases found : params.get? "direction" with
  | none => simp [found] at read
  | some value =>
      rw [found, Option.getD_some] at read
      split at read <;> cases read <;> rfl

theorem isReorderable_iff {token : String} :
    isReorderable token = true ↔ token ∈ ["+", "*", "=", "and", "or"] := by
  simp only [isReorderable, reorderable, List.contains_iff_mem,
    List.mem_cons, List.not_mem_nil, or_false]
  tauto

theorem presents_reordered {arena : Arena} {context : Context}
    {label : Label} {operands reordered : List Tree}
    (presents : arena.Presents (context.plug (.node label operands)))
    (permutation : reordered.Perm operands) :
    (arena.update label.id fun node =>
      { node with children := reordered.map Tree.id }).Presents
      (context.plug (.node label reordered)) := by
  have holds := (Arena.holds_plug_iff.mp presents.holds).2
  exact presents.relabel rfl permutation (arena.root_update _ _)
    (live?_update_live holds.slot fun _ => rfl)

/-- Exchanging an operand with its neighbour presents the tree with the two
exchanged. -/
theorem moved_rewrote {arena : Arena} {frame : Frame} {outer : Context}
    {tree : Tree} {direction : Direction} {children : List Int}
    {params : Json.Members}
    (presents : arena.Presents (Context.plug outer (frame.fill tree)))
    (reorderable : frame.label.token ∈ ["+", "*", "=", "and", "or"])
    (asked : params.get? "direction" = some (.str direction.letter))
    (moved : moved? direction (frame.before.map Tree.id).length
      (frame.before.map Tree.id ++ tree.id :: frame.after.map Tree.id) =
        some children) :
    Rewrote arena (Context.plug outer (frame.fill tree)) .move params tree.id
      (.edited (arena.update frame.label.id fun node =>
        { node with children := children })) := by
  cases direction with
  | left =>
      obtain ⟨front, neighbour, frontEq, rfl⟩ := moved?_left_eq_some moved
      obtain ⟨trees, last, beforeEq, rfl, lastEq⟩ :=
        List.map_eq_append_iff.mp frontEq
      obtain ⟨beside, rfl, rfl⟩ : ∃ beside : Tree,
          last = [beside] ∧ beside.id = neighbour := by
        simpa [List.map_eq_cons_iff] using lastEq
      have shape : frame.fill tree = .node frame.label
          (trees ++ beside :: tree :: frame.after) := by
        simp [Frame.fill, beforeEq]
      rw [shape] at presents ⊢
      refine .edited ?_ (.moveLeft outer trees beside tree frame.after rfl
        reorderable asked)
      have swapped := presents_reordered presents
        ((List.Perm.swap beside tree frame.after).append_left trees)
      simpa using swapped
  | right =>
      obtain ⟨neighbour, others, afterEq, rfl⟩ := moved?_right_eq_some moved
      obtain ⟨beside, trees, split, rfl, rfl⟩ :=
        List.map_eq_cons_iff.mp afterEq
      have shape : frame.fill tree = .node frame.label
          (frame.before ++ tree :: beside :: trees) := by
        simp [Frame.fill, split]
      rw [shape] at presents ⊢
      refine .edited ?_ (.moveRight outer frame.before tree beside trees rfl
        reorderable asked)
      have swapped := presents_reordered presents
        ((List.Perm.swap tree beside trees).append_left frame.before)
      simpa using swapped

theorem move_rewrote {arena : Arena} {tree : Tree} {focus : Int}
    {node parent : Node} {params : Json.Members} {direction : Direction}
    {index : Nat} {children : List Int} (presents : arena.Presents tree)
    (live : arena.live? focus = some node)
    (asked : Direction.ofParams params = .ok direction)
    (above : arena.parentOf node = .ok (some parent))
    (allowed : isReorderable parent.token = true)
    (place : indexIn node.id parent.children = .ok index)
    (moved : moved? direction index parent.children = some children) :
    Rewrote arena tree .move params focus
      (.edited (arena.update node.parent fun node =>
        { node with children := children })) := by
  obtain ⟨context, label, operands, rfl, rfl, rfl⟩ :=
    presents.exists_plug live
  obtain ⟨around, _⟩ := Arena.holds_plug_iff.mp presents.holds
  cases context with
  | nil => cases above
  | cons frame outer =>
      rw [Arena.parentOf_of_around around rfl] at above
      cases above
      -- The moved operand stands behind as many others as the frame says.
      have first : label.id ∉ frame.before.map Tree.id :=
        (Frame.apart presents.distinct).root_before
      rw [Label.children_node, Label.id_node, Tree.id_node,
        indexIn_append first] at place
      cases place
      exact moved_rewrote presents (isReorderable_iff.mp allowed)
        (Direction.ofParams_eq_ok asked) moved

end FormulaEdit.Rule
