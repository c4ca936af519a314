import FormulaEdit.Proofs.Replay.NormalForm
import FormulaEdit.Proofs.Replay.Sweep
import FormulaEdit.Proofs.Rule.Reorder
import FormulaEdit.Proofs.Rule.Wiring

/-!
# Rules that run

In a checked arena no rule fails for want of a node, and no condition is left
undecided.  What remains are the failures that come from the parameters, which
do not depend on the focus, and the moves that are not allowed at a node.  So a
rule that runs at one live node runs at all others, or refuses to move them.
-/

namespace FormulaEdit

namespace Rule

variable {arena : Arena} {node : Node}

theorem exists_guarded (linked : arena.Linked) {focus : Int}
    (live : arena.live? focus = some node) (condition : Condition)
    {edit : Node → Result Outcome}
    (edits : ∃ outcome, edit node = .ok outcome) :
    ∃ outcome, guarded arena focus condition edit = .ok outcome := by
  obtain ⟨value, decided⟩ := linked.exists_decision condition live
  rw [guarded_of_decided live decided]
  cases value with
  | false => exact ⟨.unchanged arena, rfl⟩
  | true => exact edits

theorem flipComparison_runs (linked : arena.Linked)
    (live : arena.live? node.id = some node) (condition : Condition) :
    ∃ outcome, flipComparison arena node.id condition = .ok outcome := by
  apply exists_guarded linked live
  split
  · exact ⟨_, rfl⟩
  · exact ⟨_, rfl⟩

theorem imply_runs (linked : arena.Linked) {parent : Node}
    (live : arena.live? node.id = some node)
    (parentLive : arena.live? node.parent = some parent) :
    ∃ outcome, imply arena node.id node parent = .ok outcome := by
  have branches := branches_of_wired linked.wired live parentLive
  obtain ⟨implied, runs, _⟩ := branches.imply_eq_ok rfl
    (linked.ids node.parent parent parentLive).symm
  exact ⟨.edited implied, runs⟩

theorem toImplication_runs (linked : arena.Linked)
    (live : arena.live? node.id = some node) (condition : Condition) :
    ∃ outcome, toImplication arena node.id condition = .ok outcome := by
  apply exists_guarded linked live
  by_cases top : node.parent = Node.noParent
  · rw [Arena.parentOf, if_pos top]
    exact ⟨_, rfl⟩
  · obtain ⟨parent, parentLive, _⟩ := linked.parents node.id node live top
    rw [Arena.parentOf_of_live parentLive]
    show ∃ outcome, (if parent.token = "or" then _ else _) = _
    split
    · exact imply_runs linked live parentLive
    · exact ⟨_, rfl⟩

theorem squashNegation_runs {tree : Tree} (presents : arena.Presents tree)
    (live : arena.live? node.id = some node) (condition : Condition) :
    ∃ outcome, squashNegation arena node.id condition = .ok outcome := by
  obtain ⟨context, label, operands, rfl, here, _⟩ := presents.exists_plug live
  obtain ⟨outcome, ran, _⟩ := squashNegation_eq_ok presents
  rw [here, squashNegation, Arena.node_of_live live] at ran
  rw [squashNegation, Arena.node_of_live live]
  simp only [bind, Except.bind] at ran ⊢
  split
  · exact ⟨_, rfl⟩
  next negation =>
    rw [if_neg negation] at ran
    split
    · exact ⟨_, rfl⟩
    next slot rest first =>
      simp only [first, guarded_always live] at ran
      exact exists_guarded presents.linked live condition ⟨outcome, ran⟩

theorem move_runs (linked : arena.Linked)
    (live : arena.live? node.id = some node) {params : Json.Members}
    {direction : Direction} (asked : Direction.ofParams params = .ok direction)
    (condition : Condition) :
    (∃ outcome, move arena node.id condition params = .ok outcome) ∨
      ∃ place, move arena node.id condition params =
        .error (.reorder node.token place) := by
  obtain ⟨value, decided⟩ := linked.exists_decision condition live
  cases value with
  | false => exact .inl ⟨_, move_of_rejected live asked decided⟩
  | true =>
      rcases inRow_or_refused linked live asked decided with
        ⟨parent, before, after, inRow⟩ | ⟨_, place, refused⟩
      · exact .inl ⟨_, move_of_inRow inRow live asked decided⟩
      · exact .inr ⟨place, refused⟩

/-- A replacement looks at all tokens, so what it does is not a matter of the
focus. -/
theorem replace_runs (linked : arena.Linked) {focus : Node}
    (focusLive : arena.live? focus.id = some focus) {params : Json.Members}
    {outcome : Outcome}
    (ran : replace arena focus.id .always params = .ok outcome)
    (live : arena.live? node.id = some node) (condition : Condition) :
    ∃ outcome, replace arena node.id condition params = .ok outcome := by
  obtain ⟨replacement, asked, made⟩ := Result.bind_eq_ok_iff.mp ran
  rw [guarded_always focusLive] at made
  rw [replace, asked]
  exact exists_guarded linked live condition ⟨outcome, made⟩

end Rule

/-- A rule that runs at one live node of a checked arena runs at every other,
under any condition, or it is a move that is not allowed there. -/
theorem Action.runs_everywhere {action : Action} {arena : Arena} {tree : Tree}
    {focus node : Node} {params : Json.Members} {outcome : Outcome}
    (presents : arena.Presents tree)
    (focusLive : arena.live? focus.id = some focus)
    (ran : action.run arena focus.id params .always = .ok outcome)
    (live : arena.live? node.id = some node) (condition : Condition) :
    (∃ outcome, action.run arena node.id params condition = .ok outcome) ∨
      ∃ place, action.run arena node.id params condition =
        .error (.reorder node.token place) := by
  have linked := presents.linked
  cases action with
  | squashNegation =>
      exact .inl (Rule.squashNegation_runs presents live condition)
  | move =>
      obtain ⟨direction, asked, _⟩ := Result.bind_eq_ok_iff.mp ran
      exact Rule.move_runs linked live asked condition
  | flipComparison =>
      exact .inl (Rule.flipComparison_runs linked live condition)
  | toImplication =>
      exact .inl (Rule.toImplication_runs linked live condition)
  | replace =>
      exact .inl (Rule.replace_runs linked focusLive ran live condition)
  | toggleBreak =>
      exact .inl (Rule.exists_guarded linked live condition ⟨_, rfl⟩)
  | toggleBracket =>
      exact .inl (Rule.exists_guarded linked live condition ⟨_, rfl⟩)

end FormulaEdit
