import FormulaEdit.Proofs.Arena.Build
import FormulaEdit.Proofs.Rule.Imply
import FormulaEdit.Proofs.Rule.Squash
import FormulaEdit.Proofs.Rule.Substitution

/-!
# What the rules keep

Every rule that reports a change rewrites the tree of a checked arena in one
place.  The result passes the check again, with one exception: squashing a
negation with more than one operand leaves operands below a tombstone.  What
holds after each rule holds along every run of rules.
-/

namespace FormulaEdit

open Rule

/-- A squash fired although a deleted negation had several operands. -/
def LossySquash (arena : Arena) (action : Action) (focus : Node)
    (outcome : Outcome) : Prop :=
  action = .squashNegation ∧ outcome.changed = true ∧
    LosesOperands arena focus

/-- Arenas that are reached by applying rules at live nodes, one after the
other, each application being one of the allowed ones. -/
inductive Arena.Run
    (allowed : Arena → Action → Node → Outcome → Prop) (start : Arena) :
    Arena → Prop where
  | start : Run allowed start start
  | step {arena : Arena} {action : Action} {focus : Node}
      {params : Json.Members} {condition : Condition} {outcome : Outcome}
      (run : Run allowed start arena) (live : focus ∈ arena.liveNodes)
      (ran : action.run arena focus.id params condition = .ok outcome)
      (permitted : allowed arena action focus outcome) :
      Run allowed start outcome.arena

theorem Arena.Presents.live_of_mem {arena : Arena} {tree : Tree}
    (presents : arena.Presents tree) {node : Node}
    (member : node ∈ arena.liveNodes) : arena.live? node.id = some node :=
  presents.linked.live_of_mem member

/-- A rule reported a change, and its arena unfolds to the rewritten tree.
Operands are lost by a lossy squash only. -/
def Rewritten (arena : Arena) (tree : Tree) (action : Action)
    (params : Json.Members) (focus : Node) (outcome : Outcome) : Prop :=
  outcome.changed = true ∧ ∃ after, outcome.arena.Unfolds after ∧
    Rewrites params focus.id arena.size action tree after ∧
    (LossySquash arena action focus outcome → Orphaned outcome.arena) ∧
    (¬LossySquash arena action focus outcome → outcome.arena.Presents after)

section

variable {arena : Arena} {tree : Tree} {action : Action}
  {params : Json.Members} {focus : Node} {outcome : Outcome}

theorem Rule.Rewrote.rewritten
    (rewrote : Rewrote arena tree action params focus.id outcome)
    (other : action ≠ .squashNegation) :
    Rewritten arena tree action params focus outcome := by
  obtain ⟨changed, after, presents, rewrites⟩ := rewrote
  exact ⟨changed, after, presents.toUnfolds, rewrites,
    fun lossy => absurd lossy.1 other, fun _ => presents⟩

theorem Rule.Squashed.rewritten
    (squashed : Squashed arena tree params focus.id
      (LosesOperands arena focus) outcome) :
    Rewritten arena tree .squashNegation params focus outcome := by
  obtain ⟨changed, after, unfolds, rewrites, kept, lost⟩ := squashed
  exact ⟨changed, after, unfolds, rewrites, fun lossy => lost lossy.2.2,
    fun clean => kept fun loses => clean ⟨rfl, changed, loses⟩⟩

/-- What a rule can do to an arena that presents a tree: nothing, or rewrite
the tree. -/
theorem Action.run_cases {condition : Condition}
    (presents : arena.Presents tree)
    (live : arena.live? focus.id = some focus)
    (ran : action.run arena focus.id params condition = .ok outcome) :
    outcome = .unchanged arena ∨
      Rewritten arena tree action params focus outcome := by
  cases change_at_live live ran with
  | skip => exact .inl rfl
  | toggle flag =>
      have rewrote := toggle_rewrote flag params presents live
      exact .inr (rewrote.rewritten (by cases flag <;> decide))
  | flip flips binary =>
      have rewrote := flip_rewrote params presents live flips binary
      exact .inr (rewrote.rewritten (by decide))
  | move asked above allowed place moved =>
      have rewrote := move_rewrote presents live asked above allowed place moved
      exact .inr (rewrote.rewritten (by decide))
  | cancel negation operands below double innerOperands ran =>
      exact .inr (squashed_of_cancel params presents live negation operands
        below double innerOperands ran).rewritten
  | absorb negation operands below opposite ran =>
      exact .inr (squashed_of_absorb params presents live negation operands
        below opposite ran).rewritten
  | imply above isDisjunction ran =>
      have rewrote := imply_rewrote params presents live above isDisjunction ran
      exact .inr (rewrote.rewritten (by decide))
  | replace asked replaced =>
      have rewrote := replace_rewrote focus.id presents asked replaced
      exact .inr (rewrote.rewritten (by decide))

end

theorem Action.validate_run {action : Action} {arena : Arena} {focus : Node}
    {params : Json.Members} {condition : Condition} {outcome : Outcome}
    (valid : arena.validate = .ok ()) (live : focus ∈ arena.liveNodes)
    (ran : action.run arena focus.id params condition = .ok outcome)
    (clean : ¬LossySquash arena action focus outcome) :
    outcome.arena.validate = .ok () := by
  obtain ⟨tree, presents⟩ := Arena.validate_eq_ok_iff.mp valid
  rcases Action.run_cases presents (presents.live_of_mem live) ran with
    rfl | ⟨_, after, _, _, _, kept⟩
  · exact valid
  · exact Arena.validate_eq_ok_iff.mpr ⟨after, kept clean⟩

theorem Action.orphaned_run {action : Action} {arena : Arena} {focus : Node}
    {params : Json.Members} {condition : Condition} {outcome : Outcome}
    (valid : arena.validate = .ok ()) (live : focus ∈ arena.liveNodes)
    (ran : action.run arena focus.id params condition = .ok outcome)
    (lossy : LossySquash arena action focus outcome) :
    Orphaned outcome.arena := by
  obtain ⟨tree, presents⟩ := Arena.validate_eq_ok_iff.mp valid
  rcases Action.run_cases presents (presents.live_of_mem live) ran with
    rfl | ⟨_, after, _, _, orphaned, _⟩
  · exact absurd lossy.2.1 (by simp [Outcome.unchanged])
  · exact orphaned lossy

/-- Along a run without lossy squashes the check keeps passing. -/
theorem Arena.Run.validate {start arena : Arena}
    (run : Arena.Run (fun arena action focus outcome =>
      ¬LossySquash arena action focus outcome) start arena)
    (valid : start.validate = .ok ()) : arena.validate = .ok () := by
  induction run with
  | start => exact valid
  | step _ live ran clean induction =>
      exact Action.validate_run induction live ran clean

/-- The rules keep checked arenas checked, up to the first squash that loses
operands, and such a squash never does. -/
theorem rules_keep_arenas_checked :
    (∀ (arena : Arena) (action : Action) (focus : Node)
      (params : Json.Members) (condition : Condition) (outcome : Outcome),
      arena.validate = .ok () → focus ∈ arena.liveNodes →
      action.run arena focus.id params condition = .ok outcome →
      (outcome.arena.validate = .ok () ↔
        ¬LossySquash arena action focus outcome) ∧
      (LossySquash arena action focus outcome →
        ∃ extra ∈ outcome.arena.liveNodes,
          outcome.arena.node? extra.parent = some Node.tombstone)) ∧
    (∀ (text : String) (start arena : Arena),
      Arena.ofText text = .ok start →
      Arena.Run (fun arena action focus outcome =>
        ¬LossySquash arena action focus outcome) start arena →
      arena.validate = .ok ()) := by
  refine ⟨?_, ?_⟩
  · intro arena action focus params condition outcome valid live ran
    have orphaned := Action.orphaned_run valid live ran
    refine ⟨⟨?_, ?_⟩, orphaned⟩
    · intro stillValid lossy
      obtain ⟨extra, extraLive, parent⟩ := orphaned lossy
      exact Arena.validate_ne_ok_of_orphan extraLive parent stillValid
    · exact Action.validate_run valid live ran
  · intro text start arena read run
    exact run.validate (Arena.validate_ofText read)

/-- In `(not (not p q))` the inner negation has two operands, and squashing
the outer one leaves `q` below a tombstone. -/
theorem rules_keep_arenas_checked_not_not :
    ∃ start focus outcome,
      Arena.ofText "(not (not p q))" = .ok start ∧
      start.validate = .ok () ∧ focus ∈ start.liveNodes ∧
      Action.squashNegation.run start focus.id [] .always = .ok outcome ∧
      LossySquash start .squashNegation focus outcome ∧
      outcome.arena.validate ≠ .ok () := by
  let focus : Node :=
    { id := 0, token := "not", children := [1], span := ⟨⟨0, 0⟩, ⟨0, 14⟩⟩ }
  obtain ⟨start, outcome, read, live, ran, lossy⟩ : ∃ start outcome,
      Arena.ofText "(not (not p q))" = .ok start ∧ focus ∈ start.liveNodes ∧
      Action.squashNegation.run start focus.id [] .always = .ok outcome ∧
      LossySquash start .squashNegation focus outcome :=
    ⟨_, _, rfl, by decide, rfl, rfl, rfl,
      .inr ⟨1, _, rfl, rfl, rfl, by decide⟩⟩
  have valid := rules_keep_arenas_checked.2 _ start start read .start
  refine ⟨start, focus, outcome, read, valid, live, ran, lossy, ?_⟩
  intro stillValid
  exact (rules_keep_arenas_checked.1 start .squashNegation focus [] .always
    outcome valid live ran).1.mp stillValid lossy

/-- Arena rewriting refines tree rewriting: a rule that reports a change makes
its rewrite in the tree of the arena and changes nothing else. -/
theorem run_refines_rewriting {arena : Arena} {action : Action} {focus : Node}
    {params : Json.Members} {condition : Condition} {outcome : Outcome}
    (valid : arena.validate = .ok ()) (live : focus ∈ arena.liveNodes)
    (ran : action.run arena focus.id params condition = .ok outcome)
    (changed : outcome.changed = true) :
    ∃ before after, arena.tree? = some before ∧
      outcome.arena.tree? = some after ∧
      Rewrites params focus.id arena.size action before after := by
  obtain ⟨tree, presents⟩ := Arena.validate_eq_ok_iff.mp valid
  rcases Action.run_cases presents (presents.live_of_mem live) ran with
    rfl | ⟨_, after, unfolds, rewrites, _⟩
  · exact absurd changed (by simp [Outcome.unchanged])
  · exact ⟨tree, after, presents.tree?_eq_some, unfolds.tree?_eq_some,
      rewrites⟩

/-- In `(or p q r)` the middle branch becomes the premise. -/
theorem run_refines_rewriting_or :
    ∃ start focus outcome before after,
      Arena.ofText "(or p q r)" = .ok start ∧
      start.validate = .ok () ∧ focus ∈ start.liveNodes ∧
      Action.toImplication.run start focus.id [] .always = .ok outcome ∧
      outcome.changed = true ∧ start.tree? = some before ∧
      outcome.arena.tree? = some after ∧
      Rewrites [] focus.id start.size .toImplication before after := by
  let focus : Node :=
    { id := 2, token := "q", parent := 0, span := ⟨⟨0, 6⟩, ⟨0, 6⟩⟩ }
  obtain ⟨start, outcome, read, valid, live, ran, changed⟩ :
      ∃ start outcome, Arena.ofText "(or p q r)" = .ok start ∧
      start.validate = .ok () ∧ focus ∈ start.liveNodes ∧
      Action.toImplication.run start focus.id [] .always = .ok outcome ∧
      outcome.changed = true :=
    ⟨_, _, rfl, rfl, by decide, rfl, rfl⟩
  obtain ⟨before, after, beforeTree, afterTree, rewrites⟩ :=
    run_refines_rewriting valid live ran changed
  exact ⟨start, focus, outcome, before, after, read, valid, live, ran,
    changed, beforeTree, afterTree, rewrites⟩

end FormulaEdit
