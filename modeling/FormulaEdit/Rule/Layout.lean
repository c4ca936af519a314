import FormulaEdit.Rule.Outcome

/-!
# Toggling layout flags
-/

namespace FormulaEdit.Rule

/-- Toggle the line break in front of the focus. -/
def toggleBreak (arena : Arena) (focus : Int) (condition : Condition) : Result Outcome :=
  guarded arena focus condition fun _ =>
    .ok (.edited (arena.update focus fun node => { node with breaksLine := !node.breaksLine }))

/-- Toggle the brackets around the focus. -/
def toggleBracket (arena : Arena) (focus : Int) (condition : Condition) : Result Outcome :=
  guarded arena focus condition fun _ =>
    .ok (.edited (arena.update focus fun node => { node with bracketed := !node.bracketed }))

end FormulaEdit.Rule
