import FormulaEdit.Rule.Outcome

/-!
# Flipping comparisons

The two operands of a comparison are exchanged and its token is replaced by
the one recorded for it.
-/

namespace FormulaEdit.Rule

/-- The token that a comparison takes when its operands are exchanged. -/
def flippedComparison? (token : String) : Option String :=
  if token = "=" then some "="
  else if token = "<" then some ">="
  else if token = ">" then some "<="
  else if token = ">=" then some "<"
  else if token = "<=" then some ">"
  else none

/-- Flip the comparison at the focus. -/
def flipComparison (arena : Arena) (focus : Int) (condition : Condition) : Result Outcome :=
  guarded arena focus condition fun node =>
    match flippedComparison? node.token, node.children with
    | some token, [first, second] =>
        .ok (.edited (arena.update focus fun node =>
          { node with token := token, children := [second, first] }))
    | _, _ => .ok (.unchanged arena)

end FormulaEdit.Rule
