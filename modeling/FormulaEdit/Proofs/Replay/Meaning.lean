import FormulaEdit.Proofs.Replay
import FormulaEdit.Proofs.Rule.Preservation
import FormulaEdit.Proofs.Tree.Meaning

/-!
# Replays that keep meaning

Squashes, moves and implications keep the meaning of the formula of a checked
arena.  A formula with a meaning has no negation with several operands, so the
squashes lose nothing and the arena stays checked; hence whole replays of such
records keep the meaning too.
-/

namespace FormulaEdit

universe u

variable {Other : Type u} [DecidableEq Other]

/-- The meaning of the formula of an arena. -/
def Arena.meaning (interpretation : Interpretation Other) (arena : Arena) :
    Option (Value Other) :=
  arena.tree?.bind (Tree.meaning interpretation)

variable {interpretation : Interpretation Other}

theorem Arena.Unfolds.meaning_eq {arena : Arena} {tree : Tree}
    (unfolds : arena.Unfolds tree) :
    arena.meaning interpretation = tree.meaning interpretation := by
  rw [Arena.meaning, unfolds.tree?_eq_some, Option.bind_some]

theorem Rewrites.exists_negation {params : Json.Members} {focus : Int}
    {size : Nat} {before after : Tree}
    (rewrites : Rewrites params focus size .squashNegation before after) :
    ∃ (context : Context) (outer inner : Label) (operands extras : List Tree),
      before = context.plug (.node outer (.node inner operands :: extras)) ∧
        outer.id = focus ∧ outer.token = "not" := by
  cases rewrites with
  | cancel context heir others extras atFocus outerNot _ =>
      exact ⟨context, _, _, _, extras, rfl, atFocus, outerNot⟩
  | absorb context operands extras atFocus outerNot _ =>
      exact ⟨context, _, _, operands, extras, rfl, atFocus, outerNot⟩

/-- Where the formula has a meaning a squash loses no operands. -/
theorem not_losesOperands_of_meaning {arena : Arena} {before after : Tree}
    {focus : Node} {params : Json.Members} {size : Nat} {value : Value Other}
    (presents : arena.Presents before)
    (live : arena.live? focus.id = some focus)
    (rewrites : Rewrites params focus.id size .squashNegation before after)
    (means : before.meaning interpretation = some value) :
    ¬Rule.LosesOperands arena focus := by
  obtain ⟨context, outer, inner, operands, extras, rfl, atFocus, outerNot⟩ :=
    rewrites.exists_negation
  obtain ⟨_, holds⟩ := Arena.holds_plug_iff.mp presents.holds
  obtain rfl : outer.node (Context.parent context)
      ((Tree.node inner operands :: extras).map Tree.id) = focus := by
    have found := holds.slot
    rw [atFocus, live] at found
    exact (Option.some.inj found).symm
  have innerHolds := holds.operand_holds _ List.mem_cons_self
  rw [Rule.losesOperands_iff innerHolds]
  obtain ⟨_, outerMeans⟩ := Tree.exists_meaning_of_plug means
  obtain ⟨_, _, same, innerMeans, _⟩ :=
    (Tree.meaning_not outerNot).mp outerMeans
  cases same
  rintro (extra | ⟨innerNot, many⟩)
  · exact extra rfl
  · obtain ⟨_, _, rfl, _⟩ := (Tree.meaning_not innerNot).mp innerMeans
    exact absurd many (by simp)

/-- The arena is checked and its formula has this meaning. -/
def Arena.Means (interpretation : Interpretation Other) (value : Value Other)
    (arena : Arena) : Prop :=
  ∃ tree, arena.Presents tree ∧ tree.meaning interpretation = some value

theorem Arena.means_iff {arena : Arena} {value : Value Other} :
    arena.Means interpretation value ↔
      arena.validate = .ok () ∧ arena.meaning interpretation = some value := by
  rw [Arena.validate_eq_ok_iff]
  constructor
  · rintro ⟨tree, presents, means⟩
    exact ⟨⟨tree, presents⟩, presents.meaning_eq.trans means⟩
  · rintro ⟨⟨tree, presents⟩, means⟩
    exact ⟨tree, presents, presents.meaning_eq.symm.trans means⟩

theorem Record.keeps_means {record : Record}
    (sound : record.action ∈ [.squashNegation, .move, .toImplication])
    (value : Value Other) : record.Keeps (Arena.Means interpretation value) := by
  rintro arena focus outcome ⟨tree, presents, means⟩ member ran changed
  have live := presents.live_of_mem member
  rcases Action.run_cases presents live ran with
    rfl | ⟨_, after, _, rewrites, _, kept⟩
  · exact absurd changed (by simp [Outcome.unchanged])
  · refine ⟨after, kept ?_, rewrites.refines sound value means⟩
    rintro ⟨squash, _, loses⟩
    rw [squash] at rewrites
    exact not_losesOperands_of_meaning presents live rewrites means loses

/-- Replays of squashes, moves and implications keep the meaning of a formula,
under every interpretation that gives it one, and the arena checked. -/
theorem replay_keeps_meaning (interpretation : Interpretation Other)
    {stack : Stack} {budget : Int} {arena result : Arena}
    {value : Value Other} (valid : arena.validate = .ok ())
    (means : arena.meaning interpretation = some value)
    (sound : ∀ record ∈ stack.records,
      record.action ∈ [.squashNegation, .move, .toImplication])
    (ran : stack.replay budget arena = .ok result) :
    result.validate = .ok () ∧
      result.meaning interpretation = some value := by
  refine Arena.means_iff.mp (Stack.replay_keeps ?_ ?_ ran)
  · intro record member
    exact record.keeps_means (sound record member) value
  · exact Arena.means_iff.mpr ⟨valid, means⟩

/-- `(or (not (< x y)) p q)` becomes `(=> (not p) (or q (>= x y)))`. -/
theorem replay_keeps_meaning_or :
    ∃ (interpretation : Interpretation Empty) (stack : Stack)
      (start result : Arena),
      Arena.ofText "(or (not (< x y)) p q)" = .ok start ∧
      stack.records.map Record.action =
        [.squashNegation, .move, .toImplication] ∧
      stack.replay 10 start = .ok result ∧
      result.liveNodes.map Node.token =
        ["=>", ">=", "x", "y", "p", "q", "not", "or"] ∧
      start.meaning interpretation = some (.bool true) ∧
      result.meaning interpretation = some (.bool true) := by
  let interpretation : Interpretation Empty :=
    { assign := fun token =>
        if token = "x" then some (.int 5)
        else if token = "y" then some (.int 3) else some (.bool false)
      apply := fun _ _ => none }
  let stack : Stack :=
    { records := [
        { action := .squashNegation },
        { action := .move, params := [("direction", .str "l")],
          condition := .tokenIs "q" },
        { action := .toImplication, condition := .tokenIs "p" }] }
  -- The kernel shares the arena between the steps, unfolding it here does not.
  have means : (Arena.ofText "(or (not (< x y)) p q)").toOption.bind
      (Arena.meaning interpretation) = some (.bool true) := by
    decide +kernel
  have replayed : ((Arena.ofText "(or (not (< x y)) p q)").bind
      (stack.replay 10)).toOption.map (·.liveNodes.map Node.token) =
      some ["=>", ">=", "x", "y", "p", "q", "not", "or"] := by
    decide +kernel
  obtain ⟨start, read⟩ : ∃ start,
      Arena.ofText "(or (not (< x y)) p q)" = .ok start := ⟨_, rfl⟩
  rw [read] at means replayed
  obtain ⟨result, found, tokens⟩ := Option.map_eq_some_iff.mp replayed
  have ran : stack.replay 10 start = .ok result := by
    change (stack.replay 10 start).toOption = some result at found
    cases ran : stack.replay 10 start with
    | error _ => simp [ran, Except.toOption] at found
    | ok arena => simpa [ran, Except.toOption] using found
  exact ⟨interpretation, stack, start, result, read, rfl, ran, tokens, means,
    (replay_keeps_meaning interpretation (Arena.validate_ofText read) means
      (by decide) ran).2⟩

end FormulaEdit
