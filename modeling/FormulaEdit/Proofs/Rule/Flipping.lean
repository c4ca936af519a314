import FormulaEdit.Proofs.Replay.Meaning

/-!
# What flipping does to meaning

A flip exchanges the operands of a comparison.  To keep its meaning a strict
comparison would have to stay strict, but the token that a flip puts is the
opposite one, as for a negation.  So a flipped `=` means what it meant, and any
other flipped comparison does so just when its operands have different values.
-/

namespace FormulaEdit

universe u

variable {Other : Type u} [DecidableEq Other]

theorem Tree.meaning_plug_congr {interpretation : Interpretation Other}
    {left right : Tree}
    (same : left.meaning interpretation = right.meaning interpretation)
    (context : Context) :
    (context.plug left).meaning interpretation =
      (context.plug right).meaning interpretation := by
  have forth : left.Refines interpretation right := by
    intro value means
    rw [← same]
    exact means
  have back : right.Refines interpretation left := by
    intro value means
    rw [same]
    exact means
  apply Option.ext
  intro value
  exact ⟨forth.plug context value, back.plug context value⟩

/-- The tokens of a comparison before and after a flip. -/
def Flips (token flipped : String) : Prop :=
  (token, flipped) ∈
    [("=", "="), ("<", ">="), (">", "<="), (">=", "<"), ("<=", ">")]

/-- A flipped comparison of two integers has the truth value that it had, if
it is an equation or the integers differ, and the other one if not. -/
theorem Interpretation.node_flips_iff (interpretation : Interpretation Other)
    {token flipped : String} (flips : Flips token flipped)
    (first second : Int) :
    interpretation.node flipped [.int second, .int first] =
        interpretation.node token [.int first, .int second] ↔
      token = "=" ∨ first ≠ second := by
  simp only [Flips, List.mem_cons, List.not_mem_nil, or_false, Prod.mk.injEq]
    at flips
  rcases flips with ⟨rfl, rfl⟩ | ⟨rfl, rfl⟩ | ⟨rfl, rfl⟩ | ⟨rfl, rfl⟩ |
    ⟨rfl, rfl⟩
  · have swapped : interpretation.node "=" [.int second, .int first] =
        interpretation.node "=" [.int first, .int second] := by
      apply interpretation.node_perm
      · decide
      · exact List.Perm.swap _ _ []
    exact ⟨fun _ => .inl rfl, fun _ => swapped⟩
  all_goals
    simp only [node, Connective.ofToken?, Connective.denote,
      Connective.compare, Option.some.injEq, Value.bool.injEq,
      decide_eq_decide, String.reduceEq, false_or]
    omega

theorem Tree.meaning_flips_iff {interpretation : Interpretation Other}
    {label : Label} {flipped : String} (flips : Flips label.token flipped)
    {first second : Tree} {left right : Int}
    (firstMeans : first.meaning interpretation = some (.int left))
    (secondMeans : second.meaning interpretation = some (.int right)) :
    (Tree.node { label with token := flipped } [second, first]).meaning
          interpretation =
        (Tree.node label [first, second]).meaning interpretation ↔
      label.token = "=" ∨ left ≠ right := by
  simp only [Tree.meaning_node, List.mapM_cons, List.mapM_nil, firstMeans,
    secondMeans]
  exact interpretation.node_flips_iff flips left right

namespace Arena

/-- The meaning of the part of a formula below an id. -/
def meaningAt (interpretation : Interpretation Other) (arena : Arena)
    (id : Int) : Option (Value Other) :=
  (arena.unfold arena.size id).bind (Tree.meaning interpretation)

theorem Holds.meaningAt_eq {arena : Arena} {parent : Int} {tree : Tree}
    (holds : arena.Holds parent tree) (distinct : tree.ids.Nodup)
    (interpretation : Interpretation Other) :
    arena.meaningAt interpretation tree.id =
      tree.meaning interpretation := by
  rw [meaningAt, unfold_of_holds holds (holds.length_le_size distinct),
    Option.bind_some]

theorem Unfolds.meaningAt_eq {arena : Arena} {context : Context} {part : Tree}
    (unfolds : arena.Unfolds (context.plug part))
    (interpretation : Interpretation Other) :
    arena.meaningAt interpretation part.id =
      part.meaning interpretation := by
  apply (holds_plug_iff.mp unfolds.holds).2.meaningAt_eq
  exact (Context.nodup_plug_iff.mp unfolds.distinct).1

end Arena

/-- A flip keeps the truth value of the comparison at the focus, and with it
the meaning of the whole formula, if the comparison is an equation or its
operands have different values.  Any other comparison of equal operands gets
the wrong truth value. -/
theorem flip_keeps_meaning_iff {arena : Arena} {focus : Node}
    {params : Json.Members} {condition : Condition} {outcome : Outcome}
    (valid : arena.validate = .ok ()) (live : focus ∈ arena.liveNodes)
    (ran : Action.flipComparison.run arena focus.id params condition =
      .ok outcome)
    (changed : outcome.changed = true)
    (interpretation : Interpretation Other) :
    ∃ first second, focus.children = [first, second] ∧
      ∀ left right : Int,
        arena.meaningAt interpretation first = some (.int left) →
        arena.meaningAt interpretation second = some (.int right) →
        (outcome.arena.meaningAt interpretation focus.id =
            arena.meaningAt interpretation focus.id ↔
          focus.token = "=" ∨ left ≠ right) ∧
        (focus.token = "=" ∨ left ≠ right →
          outcome.arena.meaning interpretation =
            arena.meaning interpretation) := by
  obtain ⟨tree, presents⟩ := Arena.validate_eq_ok_iff.mp valid
  have focusLive := presents.live_of_mem live
  rcases Action.run_cases presents focusLive ran with
    rfl | ⟨_, after, unfolds, rewrites, _⟩
  · cases changed
  cases rewrites with
  | @flip context label token first second atFocus flips =>
      obtain ⟨_, holds⟩ := Arena.holds_plug_iff.mp presents.holds
      have slot := holds.slot
      rw [atFocus, focusLive] at slot
      have focusNode := Option.some.inj slot
      have distinct := (Context.nodup_plug_iff.mp presents.distinct).1
      have operandMeans : ∀ operand ∈ [first, second],
          arena.meaningAt interpretation operand.id =
            operand.meaning interpretation := by
        intro operand member
        apply (holds.operand_holds operand member).meaningAt_eq
        rw [Tree.ids_node, List.nodup_cons] at distinct
        exact Tree.nodup_ids_of_mem distinct.2 member
      refine ⟨first.id, second.id, ?_, ?_⟩
      · rw [focusNode]
        rfl
      intro left right firstMeans secondMeans
      rw [operandMeans first (by simp)] at firstMeans
      rw [operandMeans second (by simp)] at secondMeans
      have truth := Tree.meaning_flips_iff flips firstMeans secondMeans
      have sameToken : focus.token = label.token := by
        rw [focusNode]
        rfl
      have before := presents.toUnfolds.meaningAt_eq interpretation
      have behind := unfolds.meaningAt_eq interpretation
      rw [Tree.id_node, atFocus] at before behind
      rw [before, behind, sameToken]
      refine ⟨truth, ?_⟩
      intro kept
      rw [unfolds.meaning_eq, presents.meaning_eq]
      exact Tree.meaning_plug_congr (truth.mpr kept) context

/-- With `x` one and `y` two, flipping the comparison of `(or p (< x y))` keeps
the formula true. -/
theorem flip_keeps_meaning_iff_less : ∃ (interpretation : Interpretation Empty)
    (start : Arena) (focus : Node) (outcome : Outcome),
    Arena.ofText "(or p (< x y))" = .ok start ∧
    start.validate = .ok () ∧ focus ∈ start.liveNodes ∧
    focus.token = "<" ∧
    Action.flipComparison.run start focus.id [] .always = .ok outcome ∧
    outcome.changed = true ∧
    outcome.arena.liveNodes.map Node.token = ["or", "p", ">=", "x", "y"] ∧
    start.meaning interpretation = some (.bool true) ∧
    outcome.arena.meaning interpretation = some (.bool true) := by
  let interpretation : Interpretation Empty :=
    { assign := fun token =>
        if token = "x" then some (.int 1)
        else if token = "y" then some (.int 2) else some (.bool false)
      apply := fun _ _ => none }
  let focus : Node :=
    { id := 2, token := "<", parent := 0, children := [3, 4]
      span := ⟨⟨0, 6⟩, ⟨0, 12⟩⟩ }
  obtain ⟨start, outcome, read, valid, live, ran, changed, tokens, xMeans,
      yMeans, means⟩ : ∃ start outcome,
      Arena.ofText "(or p (< x y))" = .ok start ∧
      start.validate = .ok () ∧ focus ∈ start.liveNodes ∧
      Action.flipComparison.run start focus.id [] .always = .ok outcome ∧
      outcome.changed = true ∧
      outcome.arena.liveNodes.map Node.token = ["or", "p", ">=", "x", "y"] ∧
      start.meaningAt interpretation 3 = some (.int 1) ∧
      start.meaningAt interpretation 4 = some (.int 2) ∧
      start.meaning interpretation = some (.bool true) :=
    ⟨_, _, rfl, rfl, by decide, rfl, rfl, rfl, by decide +kernel,
      by decide +kernel, by decide +kernel⟩
  obtain ⟨first, second, operands, kept⟩ :=
    flip_keeps_meaning_iff valid live ran changed interpretation
  cases operands
  have same := (kept 1 2 xMeans yMeans).2 (.inr (by decide))
  exact ⟨interpretation, start, focus, outcome, read, valid, live, rfl, ran,
    changed, tokens, means, same.trans means⟩

/-- With `x` and `y` equal, `(< x y)` is false, and flipping it makes it
true. -/
theorem flip_of_equal_operands_changes_meaning :
    ∃ (interpretation : Interpretation Empty) (start : Arena) (focus : Node)
      (outcome : Outcome),
      Arena.ofText "(< x y)" = .ok start ∧
      start.validate = .ok () ∧ focus ∈ start.liveNodes ∧
      Action.flipComparison.run start focus.id [] .always = .ok outcome ∧
      outcome.changed = true ∧
      start.meaning interpretation = some (.bool false) ∧
      outcome.arena.meaning interpretation = some (.bool true) := by
  let interpretation : Interpretation Empty :=
    { assign := fun _ => some (.int 0), apply := fun _ _ => none }
  let focus : Node :=
    { id := 0, token := "<", children := [1, 2], span := ⟨⟨0, 0⟩, ⟨0, 6⟩⟩ }
  exact ⟨interpretation, _, focus, _, rfl, rfl, by decide, rfl, rfl,
    by decide +kernel, by decide +kernel⟩

end FormulaEdit
