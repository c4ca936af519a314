import FormulaEdit.Condition

/-!
# Outcomes of rules

A rule is applied at the node that an id names, under a condition.  It tells
whether it changed anything, together with the arena after it; only a change
draws the view anew.
-/

namespace FormulaEdit

/-- What a rule did. -/
structure Outcome where
  changed : Bool
  arena : Arena
deriving DecidableEq, Repr

namespace Outcome

/-- Nothing to do. -/
def unchanged (arena : Arena) : Outcome := ⟨false, arena⟩

/-- A change, with a fresh view. -/
def edited (arena : Arena) : Outcome := ⟨true, arena.refresh⟩

end Outcome

namespace Rule

/-- Do something at the focus if the condition holds there. -/
def guarded (arena : Arena) (focus : Int) (condition : Condition)
    (edit : Node → Result Outcome) : Result Outcome := do
  let node ← arena.node focus
  if ← condition.holds arena node then edit node else return .unchanged arena

end Rule

end FormulaEdit
