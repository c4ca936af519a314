import FormulaEdit.Rule.Outcome

/-!
# Disjunctions as implications

One branch of a disjunction is negated and becomes the premise of an
implication whose conclusion is the disjunction of the others.  The
implication takes over the slot of the disjunction; the negation and the new
disjunction are added at the end.
-/

namespace FormulaEdit.Rule

/-- Hang nodes under a new parent, one after the other. -/
def adopt (parent : Int) : Arena → List Int → Result Arena
  | arena, [] => .ok arena
  | arena, id :: rest => do
      let _ ← arena.node id
      adopt parent (arena.update id fun node => { node with parent := parent }) rest

/-- Turn the disjunction above a branch, the slot `focus`, into an implication. -/
def imply (arena : Arena) (focus : Int) (branch disjunction : Node) : Result Outcome := do
  let premise : Int := arena.size
  let conclusion : Int := premise + 1
  let others := disjunction.children.filter (· != branch.id)
  let arena := arena.push "not" disjunction.id [branch.id] .unknown
  let arena := arena.update focus fun node => { node with parent := premise }
  let arena := arena.push "or" disjunction.id [] .unknown
  let arena ← adopt conclusion arena others
  let arena := arena.update conclusion fun node => { node with children := others }
  return .edited (arena.update branch.parent fun node =>
    { node with token := "=>", children := [premise, conclusion] })

/-- Make the branch at the focus a premise. -/
def toImplication (arena : Arena) (focus : Int) (condition : Condition) : Result Outcome :=
  guarded arena focus condition fun node => do
    match ← arena.parentOf node with
    | none => return .unchanged arena
    | some parent =>
        if parent.token = "or" then imply arena focus node parent
        else return .unchanged arena

end FormulaEdit.Rule
