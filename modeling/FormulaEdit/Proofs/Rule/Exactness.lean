import FormulaEdit.Proofs.Rule.Preservation
import FormulaEdit.Proofs.Rule.Writes
import FormulaEdit.Render

/-!
# What a reported change says

A rule reports a change just when its arena differs from the one it was given.
For all rules but the replacement this is seen in the tree: no rewrite leads
from a tree with distinct ids back to the same tree.  A replacement counts the
tokens that become different ones.
-/

namespace FormulaEdit

theorem Context.plug_injective (context : Context) :
    Function.Injective context.plug := by
  induction context with
  | nil => exact Function.injective_id
  | cons frame outer induction =>
      intro first second same
      have filled : frame.fill first = frame.fill second := induction same
      have operands := (Tree.node.inj filled).2
      exact (List.cons.inj (List.append_cancel_left operands)).1

theorem Context.plug_ne_of_length (context : Context) {first second : Tree}
    (smaller : second.ids.length < first.ids.length) :
    context.plug first ≠ context.plug second := by
  intro same
  rw [context.plug_injective same] at smaller
  exact Nat.lt_irrefl _ smaller

namespace Tree

theorem exchanged_ne {label : Label} {before after : List Tree}
    {first second : Tree}
    (distinct :
      (Tree.node label (before ++ first :: second :: after)).ids.Nodup) :
    before ++ first :: second :: after ≠
      before ++ second :: first :: after := by
  intro same
  have head := (List.cons.inj (List.append_cancel_left same)).1
  have roots := nodup_roots distinct
  rw [head, List.map_append, List.map_cons, List.map_cons,
    List.nodup_append] at roots
  exact (List.nodup_cons.mp roots.2.1).1 List.mem_cons_self

end Tree

/-- No rewrite but a replacement leaves a tree with distinct ids as it is. -/
theorem Rewrites.ne {params : Json.Members} {focus : Int} {size : Nat}
    {action : Action} {before after : Tree}
    (rewrites : Rewrites params focus size action before after)
    (distinct : before.ids.Nodup) (notReplace : action ≠ .replace) :
    before ≠ after := by
  intro same
  cases rewrites with
  | cancel context heir others extras =>
      apply context.plug_ne_of_length _ same
      simp only [Tree.ids_node, Tree.idsAll_cons, List.length_cons,
        List.length_append]
      omega
  | absorb context operands extras =>
      apply context.plug_ne_of_length _ same
      simp only [Tree.ids_node, Tree.idsAll_cons, List.length_cons,
        List.length_append]
      omega
  | moveLeft context before neighbour moved after =>
      apply Tree.exchanged_ne (Context.nodup_plug_iff.mp distinct).1
      exact (Tree.node.inj (context.plug_injective same)).2
  | moveRight context before moved neighbour after =>
      apply Tree.exchanged_ne (Context.nodup_plug_iff.mp distinct).1
      exact (Tree.node.inj (context.plug_injective same)).2
  | @flip context label _ first second =>
      have pair : (Tree.node label ([] ++ first :: second :: [])).ids.Nodup :=
        (Context.nodup_plug_iff.mp distinct).1
      apply Tree.exchanged_ne pair
      exact (Tree.node.inj (context.plug_injective same)).2
  | @imply context label before branch after _ disjunction =>
      have labels := (Tree.node.inj (context.plug_injective same)).1
      have implication : label.token = "=>" := congrArg Label.token labels
      rw [disjunction] at implication
      exact absurd implication (by decide)
  | substitute => exact notReplace rfl
  | toggleBreak context operands =>
      have labels := (Tree.node.inj (context.plug_injective same)).1
      exact (Bool.eq_not_self _).mp (congrArg Label.breaksLine labels)
  | toggleBracket context operands =>
      have labels := (Tree.node.inj (context.plug_injective same)).1
      exact (Bool.eq_not_self _).mp (congrArg Label.bracketed labels)

theorem Arena.Unfolds.eq_of_slots {arena edited : Arena} {before after : Tree}
    (unfolds : arena.Unfolds before) (unfoldsAfter : edited.Unfolds after)
    (slots : edited.slots = arena.slots) (root : edited.root = arena.root) :
    before = after := by
  have same : ∀ id, arena.live? id = edited.live? id := by
    intro id
    unfold Arena.live? Arena.node?
    rw [slots]
  have again := unfoldsAfter.congr root.symm same
  exact Option.some.inj (unfolds.tree?_eq_some.symm.trans again.tree?_eq_some)

namespace Rule.Replacement

variable {replacement : Replacement} {flag : Bool}

theorem onNode_reports {node updated : Node}
    (ran : replacement.onNode node = .ok (flag, updated)) :
    flag = false ↔ updated = node := by
  unfold onNode at ran
  split at ran
  next =>
      cases ran
      exact iff_of_true rfl rfl
  next =>
      obtain ⟨text, _, rest⟩ := Result.bind_eq_ok_iff.mp ran
      simp only at rest
      split at rest
      next =>
          cases rest
          rw [bne_eq_false_iff_eq]
          exact ⟨fun same => by rw [same], fun same => congrArg Node.token same⟩
      next => cases rest

theorem onNodes_reports {nodes updated : List Node}
    (ran : replacement.onNodes nodes = .ok (flag, updated)) :
    flag = false ↔ updated = nodes := by
  induction nodes generalizing flag updated with
  | nil =>
      cases ran
      exact iff_of_true rfl rfl
  | cons node nodes induction =>
      obtain ⟨⟨first, after⟩, head, rest⟩ := Result.bind_eq_ok_iff.mp ran
      obtain ⟨⟨later, afters⟩, tail, result⟩ := Result.bind_eq_ok_iff.mp rest
      cases result
      rw [Bool.or_eq_false_iff, onNode_reports head, induction tail,
        List.cons.injEq]

end Rule.Replacement

theorem Rule.Change.slots_ne {arena : Arena} {focus : Int}
    {node : Node} {params : Json.Members} {action : Action}
    {outcome : Outcome} (change : Change arena focus node params action outcome)
    (replaces : action = .replace) (changed : outcome.changed = true) :
    outcome.arena.slots ≠ arena.slots := by
  cases change with
  | skip => cases changed
  | @replace replacement nodes asked replaced =>
      intro same
      have nodesSame : nodes = arena.slots.toList := congrArg Array.toList same
      cases (Replacement.onNodes_reports replaced).mpr nodesSame
  | toggle flag => cases flag <;> cases replaces
  | flip | move | cancel | absorb | imply => cases replaces

theorem Action.differs_of_changed {action : Action} {arena : Arena}
    {focus : Node} {params : Json.Members} {condition : Condition}
    {outcome : Outcome} (valid : arena.validate = .ok ())
    (live : focus ∈ arena.liveNodes)
    (ran : action.run arena focus.id params condition = .ok outcome)
    (changed : outcome.changed = true) :
    ¬(outcome.arena.slots = arena.slots ∧
      outcome.arena.root = arena.root) := by
  rintro ⟨slots, root⟩
  by_cases replaces : action = .replace
  · obtain ⟨node, _, change⟩ := Action.changed_of_run ran
    exact change.slots_ne replaces changed slots
  · obtain ⟨tree, presents⟩ := Arena.validate_eq_ok_iff.mp valid
    rcases Action.run_cases presents (presents.live_of_mem live) ran with
      rfl | ⟨_, after, unfolds, rewrites, _⟩
    · cases changed
    · apply rewrites.ne presents.distinct replaces
      exact presents.toUnfolds.eq_of_slots unfolds slots root

/-- A rule reports no change just when its arena has the slots and the root of
the one it was given, and then it has its view as well. -/
theorem change_reported_exactly {arena : Arena} {action : Action}
    {focus : Node} {params : Json.Members} {condition : Condition}
    {outcome : Outcome} (valid : arena.validate = .ok ())
    (live : focus ∈ arena.liveNodes)
    (ran : action.run arena focus.id params condition = .ok outcome) :
    (outcome.changed = false ↔
      outcome.arena.slots = arena.slots ∧ outcome.arena.root = arena.root) ∧
    (outcome.changed = false → outcome.arena.view = arena.view) := by
  have kept : outcome.changed = false → outcome.arena = arena := by
    intro unchanged
    cases Action.wrote_of_run ran with
    | unchanged => rfl
    | edited => cases unchanged
  refine ⟨⟨?_, ?_⟩, ?_⟩
  · intro unchanged
    rw [kept unchanged]
    exact ⟨rfl, rfl⟩
  · intro same
    rw [Bool.eq_false_iff]
    intro changed
    exact Action.differs_of_changed valid live ran changed same
  · intro unchanged
    rw [kept unchanged]

/-- Flipping `(= x x)` shows in the order of the ids only, but it is a change.
Moving the first operand to the left is none. -/
theorem change_reported_exactly_equation :
    ∃ start equation operand flipped moved,
      Arena.ofText "(= x x)" = .ok start ∧ start.validate = .ok () ∧
      equation ∈ start.liveNodes ∧ operand ∈ start.liveNodes ∧
      Action.flipComparison.run start equation.id [] .always = .ok flipped ∧
      flipped.changed = true ∧
      start.render {} = .ok "(= x x)" ∧
      flipped.arena.render {} = .ok "(= x x)" ∧
      ¬(flipped.arena.slots = start.slots ∧
        flipped.arena.root = start.root) ∧
      Action.move.run start operand.id [("direction", .str "l")] .always =
        .ok moved ∧
      moved.changed = false ∧ moved.arena.slots = start.slots ∧
      moved.arena.root = start.root ∧ moved.arena.view = start.view := by
  let equation : Node :=
    { id := 0, token := "=", children := [1, 2], span := ⟨⟨0, 0⟩, ⟨0, 6⟩⟩ }
  let operand : Node :=
    { id := 1, token := "x", parent := 0, span := ⟨⟨0, 3⟩, ⟨0, 3⟩⟩ }
  obtain ⟨start, flipped, moved, read, valid, equationLive, operandLive,
      flips, changed, before, after, moves, unchanged⟩ :
      ∃ start flipped moved,
      Arena.ofText "(= x x)" = .ok start ∧ start.validate = .ok () ∧
      equation ∈ start.liveNodes ∧ operand ∈ start.liveNodes ∧
      Action.flipComparison.run start equation.id [] .always = .ok flipped ∧
      flipped.changed = true ∧
      start.render {} = .ok "(= x x)" ∧
      flipped.arena.render {} = .ok "(= x x)" ∧
      Action.move.run start operand.id [("direction", .str "l")] .always =
        .ok moved ∧
      moved.changed = false :=
    ⟨_, _, _, rfl, rfl, by decide, by decide, rfl, rfl, rfl, rfl, rfl, rfl⟩
  have differs := (change_reported_exactly valid equationLive flips).1
  obtain ⟨same, view⟩ := change_reported_exactly valid operandLive moves
  obtain ⟨slots, root⟩ := same.mp unchanged
  refine ⟨start, equation, operand, flipped, moved, read, valid, equationLive,
    operandLive, flips, changed, before, after, ?_, moves, unchanged, slots,
    root, view unchanged⟩
  rw [← differs, changed]
  exact Bool.noConfusion

end FormulaEdit
