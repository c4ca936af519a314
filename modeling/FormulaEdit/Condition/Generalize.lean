import FormulaEdit.Condition
import FormulaEdit.Rule.Action

/-!
# Generalising an edit

The condition under which an edit is to be repeated elsewhere comes from the
node and the arena before the edit: a toggle is tied to the depth and to the
flag's old value, a move to the token, and a squashed negation or a
replacement to nothing.  Every other edit is tied to token and depth.
-/

namespace FormulaEdit.Condition

/-- The condition that ties an edit to a node's token and depth. -/
def sameTokenAndDepth (arena : Arena) (node : Node) : Result Condition := do
  return .both (.tokenIs node.token) (.depthIs (← arena.depth node : Nat))

/-- The condition that ties a toggle to a node's depth and the flag's value. -/
def sameDepthAndFlag (flag : Flag) (arena : Arena) (node : Node) : Result Condition := do
  return .both (.depthIs (← arena.depth node : Nat)) (.flagIs flag (flag.get node))

/-- The condition for repeating an edit that was made at a node. -/
def generalize (action : Action) (arena : Arena) (node : Node) : Result Condition :=
  match action with
  | .move => .ok (.tokenIs node.token)
  | .toggleBreak => sameDepthAndFlag .breaksLine arena node
  | .toggleBracket => sameDepthAndFlag .bracketed arena node
  | .squashNegation => .ok .always
  | .replace => .ok .always
  | .flipComparison => sameTokenAndDepth arena node
  | .toImplication => sameTokenAndDepth arena node

/-- The condition for repeating an edit by its name; one outside the catalogue
is tied to token and depth. -/
def generalizeNamed (name : Json) (arena : Arena) (node : Node) : Result Condition :=
  match name with
  | .str name =>
      match Action.ofName? name with
      | some action => generalize action arena node
      | none => sameTokenAndDepth arena node
  | _ => sameTokenAndDepth arena node

end FormulaEdit.Condition
