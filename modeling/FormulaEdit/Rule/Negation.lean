import FormulaEdit.Rule.Outcome

/-!
# Squashing negations

A double negation becomes what it negates, and a negated strict comparison the
opposite comparison.
-/

namespace FormulaEdit.Rule

/-- The comparison that holds when a strict one does not. -/
def negatedComparison? (token : String) : Option String :=
  if token = "<" then some ">="
  else if token = ">" then some "<="
  else none

/-- Put `item` in the place of the first `old` in a list. -/
def replaceFirst (old item : Int) : List Int → Option (List Int)
  | [] => none
  | head :: tail =>
      if head = old then some (item :: tail) else (replaceFirst old item tail).map (head :: ·)

/-- Hang the node of the slot `heir` where `old` hangs: in the same place of
the same parent, or at the root. -/
def inherit (arena : Arena) (old : Node) (heir : Int) (heirNode : Node) : Result Arena := do
  let arena := arena.update heir fun node => { node with parent := old.parent }
  if old.parent = Node.noParent then return { arena with root := heirNode.id }
  else
    let parent ← arena.node old.parent
    match replaceFirst old.id heirNode.id parent.children with
    | some children =>
        return arena.update old.parent fun node => { node with children := children }
    | none => .error (.notListed old.id)

/-- Put the first operand of the inner negation in the place of the outer one. -/
def cancel (arena : Arena) (outer inner : Node) (heir : Int) : Result Outcome := do
  let heirNode ← arena.node heir
  let arena ← inherit arena outer heir heirNode
  let arena ← arena.delete outer
  let arena ← arena.delete inner
  return .edited arena

/-- Put a comparison with the opposite token in the place of its negation. -/
def absorb (arena : Arena) (outer inner : Node) (slot : Int) (token : String) :
    Result Outcome := do
  let arena := arena.update slot fun node => { node with token := token }
  let arena ← inherit arena outer slot inner
  let arena ← arena.delete outer
  return .edited arena

/-- Squash a negation into its first operand. -/
def squash (arena : Arena) (outer : Node) (slot : Int) : Result Outcome := do
  let inner ← arena.node slot
  if inner.token = "not" then
    match inner.children with
    | [] => return .unchanged arena
    | heir :: _ => cancel arena outer inner heir
  else
    match negatedComparison? inner.token with
    | some token => absorb arena outer inner slot token
    | none => return .unchanged arena

/-- Squash the negation at the focus. -/
def squashNegation (arena : Arena) (focus : Int) (condition : Condition) : Result Outcome := do
  let node ← arena.node focus
  if node.token ≠ "not" then return .unchanged arena
  else
    match node.children with
    | [] => return .unchanged arena
    | slot :: _ => guarded arena focus condition fun outer => squash arena outer slot

end FormulaEdit.Rule
