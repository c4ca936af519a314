import FormulaEdit.Rule.Action
import FormulaEdit.Rule.Comparison
import FormulaEdit.Rule.Implication
import FormulaEdit.Rule.Layout
import FormulaEdit.Rule.Negation
import FormulaEdit.Rule.Reorder
import FormulaEdit.Rule.Replacement

/-!
# The rules

Every rule is applied at an id, under a condition and with parameters, and
leaves the arena it is given alone.
-/

namespace FormulaEdit

/-- Apply a rule at the node that an id names. -/
def Action.run (action : Action) (arena : Arena) (focus : Int) (params : Json.Members)
    (condition : Condition) : Result Outcome :=
  match action with
  | .squashNegation => Rule.squashNegation arena focus condition
  | .move => Rule.move arena focus condition params
  | .flipComparison => Rule.flipComparison arena focus condition
  | .toImplication => Rule.toImplication arena focus condition
  | .replace => Rule.replace arena focus condition params
  | .toggleBreak => Rule.toggleBreak arena focus condition
  | .toggleBracket => Rule.toggleBracket arena focus condition

/-- Apply the rule that a value names. -/
def runNamed (name : Json) (arena : Arena) (focus : Int) (params : Json.Members)
    (condition : Condition) : Result Outcome := do
  let action ← Action.ofJson name
  action.run arena focus params condition

end FormulaEdit
