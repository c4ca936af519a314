import FormulaEdit.Proofs.Rule.Failures

/-!
# What rules do

A rule that runs does nothing, or it makes one kind of change at slots that it
has found.  The kinds are listed here once, for any focus: it may be a dead
slot, and the links of the arena may be broken.  What each kind of change keeps
is then kept by every rule.
-/

namespace FormulaEdit

namespace Result

variable {α β : Type} {property : β → Prop}

/-- If a computation succeeds, its value has a property, and if it fails, it is
not because of the limit of a replay. -/
def Gives (result : Result β) (property : β → Prop) : Prop :=
  Unlimited result ∧ ∀ value, result = .ok value → property value

theorem gives_ok {value : β} (holds : property value) :
    Gives (.ok value) property := by
  refine ⟨unlimited_ok value, ?_⟩
  intro again same
  cases same
  exact holds

theorem gives_error {failure : Failure}
    (other : failure.isReplayLimit = false) :
    Gives (.error failure) property := by
  refine ⟨unlimited_error other, ?_⟩
  intro value same
  cases same

theorem Unlimited.gives {result : Result β} (unlimited : Unlimited result)
    (holds : ∀ value, result = .ok value → property value) :
    Gives result property :=
  ⟨unlimited, holds⟩

theorem Unlimited.bind_gives {first : Result α} {next : α → Result β}
    (before : Unlimited first)
    (after : ∀ value, first = .ok value → Gives (next value) property) :
    Gives (first >>= next) property := by
  cases first with
  | error cause => exact gives_error (before cause rfl)
  | ok value => exact after value rfl

end Result

/-! ## Toggles and flips -/

/-- What a toggle or a flip makes of a node. -/
def Action.touched : Action → Node → Node
  | .toggleBreak, node => { node with breaksLine := !node.breaksLine }
  | .toggleBracket, node => { node with bracketed := !node.bracketed }
  | .flipComparison, node =>
      { node with
        token := (Rule.flippedComparison? node.token).getD node.token
        children := node.children.reverse }
  | _, node => node

theorem Action.id_touched (action : Action) (node : Node) :
    (action.touched node).id = node.id := by
  cases action <;> rfl

theorem Action.parent_touched (action : Action) (node : Node) :
    (action.touched node).parent = node.parent := by
  cases action <;> rfl

/-- The rule that toggles a flag. -/
def Flag.toggle : Flag → Action
  | .breaksLine => .toggleBreak
  | .bracketed => .toggleBracket

theorem Flag.get_touched (flag : Flag) (node : Node) :
    flag.get (flag.toggle.touched node) = !flag.get node := by
  cases flag <;> rfl

theorem Flag.get_touched_of_ne {flag other : Flag} (different : other ≠ flag)
    (node : Node) : other.get (flag.toggle.touched node) = other.get node := by
  cases flag <;> cases other <;> first | rfl | exact absurd rfl different

theorem Flag.run_toggle (flag : Flag) (arena : Arena) (focus : Int)
    (params : Json.Members) (condition : Condition) :
    flag.toggle.run arena focus params condition =
      Rule.guarded arena focus condition fun _ =>
        .ok (.edited (arena.update focus flag.toggle.touched)) := by
  cases flag <;> rfl

namespace Rule

open Result

/-- What a rule that runs has done at a focus, the slot of a node. -/
inductive Change (arena : Arena) (focus : Int) (node : Node)
    (params : Json.Members) : Action → Outcome → Prop where
  | skip (action : Action) :
      Change arena focus node params action (.unchanged arena)
  | toggle (flag : Flag) :
      Change arena focus node params flag.toggle
        (.edited (arena.update focus flag.toggle.touched))
  | flip {token : String} {first second : Int}
      (flips : flippedComparison? node.token = some token)
      (binary : node.children = [first, second]) :
      Change arena focus node params .flipComparison
        (.edited (arena.update focus fun node =>
          { node with token := token, children := [second, first] }))
  | move {parent : Node} {direction : Direction} {index : Nat}
      {children : List Int}
      (asked : Direction.ofParams params = .ok direction)
      (above : arena.parentOf node = .ok (some parent))
      (allowed : isReorderable parent.token = true)
      (place : indexIn node.id parent.children = .ok index)
      (moved : moved? direction index parent.children = some children) :
      Change arena focus node params .move
        (.edited (arena.update node.parent fun node =>
          { node with children := children }))
  | cancel {inner : Node} {slot heir : Int} {extras others : List Int}
      {outcome : Outcome}
      (negation : node.token = "not")
      (operands : node.children = slot :: extras)
      (below : arena.node? slot = some inner)
      (double : inner.token = "not")
      (innerOperands : inner.children = heir :: others)
      (ran : Rule.cancel arena node inner heir = .ok outcome) :
      Change arena focus node params .squashNegation outcome
  | absorb {inner : Node} {slot : Int} {extras : List Int} {token : String}
      {outcome : Outcome}
      (negation : node.token = "not")
      (operands : node.children = slot :: extras)
      (below : arena.node? slot = some inner)
      (opposite : negatedComparison? inner.token = some token)
      (ran : Rule.absorb arena node inner slot token = .ok outcome) :
      Change arena focus node params .squashNegation outcome
  | imply {disjunction : Node} {outcome : Outcome}
      (above : arena.parentOf node = .ok (some disjunction))
      (isDisjunction : disjunction.token = "or")
      (ran : Rule.imply arena focus node disjunction = .ok outcome) :
      Change arena focus node params .toImplication outcome
  | replace {replacement : Replacement} {nodes : List Node}
      (asked : Replacement.ofParams params = .ok replacement)
      (replaced : replacement.onNodes arena.slots.toList = .ok (true, nodes)) :
      Change arena focus node params .replace
        (.edited { arena with slots := nodes.toArray })

/-- A rule has found the node of its focus, and done something there. -/
def Changed (arena : Arena) (focus : Int) (params : Json.Members)
    (action : Action) (outcome : Outcome) : Prop :=
  ∃ node, arena.node? focus = some node ∧
    Change arena focus node params action outcome

/-! ## The steps of a squash -/

section Steps

variable {arena : Arena} {outcome : Outcome}

theorem exists_of_cancel {outer inner : Node} {heir : Int}
    (ran : cancel arena outer inner heir = .ok outcome) :
    ∃ heirNode inherited first buried,
      arena.node? heir = some heirNode ∧
      inherit arena outer heir heirNode = .ok inherited ∧
      inherited.delete outer = .ok first ∧
      first.delete inner = .ok buried ∧ outcome = .edited buried := by
  obtain ⟨heirNode, found, rest⟩ := bind_eq_ok_iff.mp ran
  obtain ⟨inherited, hung, rest⟩ := bind_eq_ok_iff.mp rest
  obtain ⟨first, outerBuried, rest⟩ := bind_eq_ok_iff.mp rest
  obtain ⟨buried, innerBuried, made⟩ := bind_eq_ok_iff.mp rest
  cases made
  exact ⟨heirNode, inherited, first, buried,
    (arena.node_eq_ok_iff heir heirNode).mp found, hung, outerBuried,
    innerBuried, rfl⟩

theorem exists_of_absorb {outer inner : Node} {slot : Int} {token : String}
    (ran : absorb arena outer inner slot token = .ok outcome) :
    ∃ inherited buried,
      inherit (arena.update slot fun node => { node with token := token })
        outer slot inner = .ok inherited ∧
      inherited.delete outer = .ok buried ∧ outcome = .edited buried := by
  obtain ⟨inherited, hung, rest⟩ := bind_eq_ok_iff.mp ran
  obtain ⟨buried, outerBuried, made⟩ := bind_eq_ok_iff.mp rest
  cases made
  exact ⟨inherited, buried, hung, outerBuried, rfl⟩

end Steps

/-! ## Every rule makes one of the changes -/

section Gives

variable (arena : Arena) (focus : Int) (params : Json.Members)
  (condition : Condition)

variable {arena focus params condition} in
theorem guarded_gives {action : Action} {edit : Node → Result Outcome}
    (made : ∀ node, arena.node? focus = some node →
      Gives (edit node) (Change arena focus node params action)) :
    Gives (guarded arena focus condition edit)
      (Changed arena focus params action) := by
  apply (arena.node_unlimited focus).bind_gives
  intro node stored
  have found := (arena.node_eq_ok_iff focus node).mp stored
  apply (condition.holds_unlimited arena node).bind_gives
  intro holds _
  split
  · apply (made node found).1.gives
    intro outcome ran
    exact ⟨node, found, (made node found).2 outcome ran⟩
  · exact gives_ok ⟨node, found, .skip action⟩

theorem toggle_gives (flag : Flag) :
    Gives (flag.toggle.run arena focus params condition)
      (Changed arena focus params flag.toggle) := by
  rw [flag.run_toggle]
  apply guarded_gives
  intro node _
  exact gives_ok (.toggle flag)

theorem flipComparison_gives :
    Gives (flipComparison arena focus condition)
      (Changed arena focus params .flipComparison) := by
  apply guarded_gives
  intro node _
  split
  next flips binary => exact gives_ok (.flip flips binary)
  next => exact gives_ok (.skip _)

theorem move_gives :
    Gives (move arena focus condition params)
      (Changed arena focus params .move) := by
  apply (Direction.ofParams_unlimited params).bind_gives
  intro direction asked
  apply guarded_gives
  intro node _
  apply (arena.parentOf_unlimited node).bind_gives
  intro parent? above
  cases parent? with
  | none => exact gives_error rfl
  | some parent =>
      simp only
      split
      next => exact gives_error rfl
      next allowed =>
          apply (indexIn_unlimited node.id parent.children).bind_gives
          intro index place
          split
          next => exact gives_ok (.skip _)
          next moved =>
              rw [Bool.not_eq_true', Bool.not_eq_false] at allowed
              exact gives_ok (.move asked above allowed place moved)

theorem cancel_unlimited (outer inner : Node) (heir : Int) :
    Unlimited (cancel arena outer inner heir) := by
  apply (arena.node_unlimited heir).bind
  intro heirNode
  apply (inherit_unlimited arena outer heir heirNode).bind
  intro inherited
  apply (inherited.delete_unlimited outer).bind
  intro first
  apply (first.delete_unlimited inner).bind
  intro second
  apply unlimited_ok

theorem absorb_unlimited (outer inner : Node) (slot : Int) (token : String) :
    Unlimited (absorb arena outer inner slot token) := by
  apply (inherit_unlimited _ outer slot inner).bind
  intro inherited
  apply (inherited.delete_unlimited outer).bind
  intro buried
  apply unlimited_ok

variable {arena focus params} in
theorem squash_gives {node : Node} {slot : Int} {extras : List Int}
    (negation : node.token = "not")
    (operands : node.children = slot :: extras) :
    Gives (squash arena node slot)
      (Change arena focus node params .squashNegation) := by
  apply (arena.node_unlimited slot).bind_gives
  intro inner stored
  have below := (arena.node_eq_ok_iff slot inner).mp stored
  split
  next double =>
      split
      next => exact gives_ok (.skip _)
      next heir others innerOperands =>
          apply (cancel_unlimited arena node inner heir).gives
          intro outcome ran
          exact .cancel negation operands below double innerOperands ran
  next =>
      split
      next token opposite =>
          apply (absorb_unlimited arena node inner slot token).gives
          intro outcome ran
          exact .absorb negation operands below opposite ran
      next => exact gives_ok (.skip _)

theorem squashNegation_gives :
    Gives (squashNegation arena focus condition)
      (Changed arena focus params .squashNegation) := by
  apply (arena.node_unlimited focus).bind_gives
  intro node stored
  have found := (arena.node_eq_ok_iff focus node).mp stored
  split
  next => exact gives_ok ⟨node, found, .skip _⟩
  next negation =>
      split
      next => exact gives_ok ⟨node, found, .skip _⟩
      next slot extras operands =>
          apply guarded_gives
          intro again present
          -- The node was looked up before the condition, and is once more.
          rw [found] at present
          cases present
          exact squash_gives (Decidable.not_not.mp negation) operands

theorem toImplication_gives :
    Gives (toImplication arena focus condition)
      (Changed arena focus params .toImplication) := by
  apply guarded_gives
  intro branch _
  apply (arena.parentOf_unlimited branch).bind_gives
  intro parent? above
  cases parent? with
  | none => exact gives_ok (.skip _)
  | some disjunction =>
      simp only
      split
      next isDisjunction =>
          have unlimited : Unlimited (imply arena focus branch disjunction) := by
            apply (adopt_unlimited _ _ _).bind
            intro adopted
            apply unlimited_ok
          apply unlimited.gives
          intro outcome ran
          exact .imply above isDisjunction ran
      next => exact gives_ok (.skip _)

theorem replace_gives :
    Gives (replace arena focus condition params)
      (Changed arena focus params .replace) := by
  apply (Replacement.ofParams_unlimited params).bind_gives
  intro replacement asked
  apply guarded_gives
  intro node _
  apply (replacement.onNodes_unlimited _).bind_gives
  rintro ⟨changed, nodes⟩ replaced
  cases changed with
  | false => exact gives_ok (.skip _)
  | true => exact gives_ok (.replace asked replaced)

end Gives

end Rule

namespace Action

open Result

variable (action : Action) (arena : Arena) (focus : Int)
  (params : Json.Members) (condition : Condition)

theorem run_gives :
    Gives (action.run arena focus params condition)
      (Rule.Changed arena focus params action) := by
  cases action with
  | squashNegation => exact Rule.squashNegation_gives arena focus params condition
  | move => exact Rule.move_gives arena focus params condition
  | flipComparison => exact Rule.flipComparison_gives arena focus params condition
  | toImplication => exact Rule.toImplication_gives arena focus params condition
  | replace => exact Rule.replace_gives arena focus params condition
  | toggleBreak =>
      exact Rule.toggle_gives arena focus params condition .breaksLine
  | toggleBracket =>
      exact Rule.toggle_gives arena focus params condition .bracketed

theorem run_unlimited : Unlimited (action.run arena focus params condition) :=
  (action.run_gives arena focus params condition).1

variable {action arena focus params condition} in
theorem changed_of_run {outcome : Outcome}
    (ran : action.run arena focus params condition = .ok outcome) :
    Rule.Changed arena focus params action outcome :=
  (action.run_gives arena focus params condition).2 outcome ran

end Action

end FormulaEdit
