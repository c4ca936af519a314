import FormulaEdit.Failure

/-!
# Actions

The names of the rules in the catalogue.
-/

namespace FormulaEdit

/-- A rule of the catalogue. -/
inductive Action where
  | squashNegation
  | move
  | flipComparison
  | toImplication
  | replace
  | toggleBreak
  | toggleBracket
deriving DecidableEq, Repr, Inhabited

namespace Action

/-- The name of a rule. -/
def name : Action → String
  | .squashNegation => "squashNegation"
  | .move => "move"
  | .flipComparison => "flipCmp"
  | .toImplication => "toImp"
  | .replace => "replace"
  | .toggleBreak => "changeBreak"
  | .toggleBracket => "changeBracket"

/-- All rules, in the order of their names. -/
def all : List Action :=
  [.toggleBracket, .toggleBreak, .flipComparison, .move, .replace, .squashNegation,
    .toImplication]

/-- The rule of a name. -/
def ofName? (name : String) : Option Action :=
  all.find? fun action => action.name == name

@[simp] theorem ofName?_name (action : Action) : ofName? action.name = some action := by
  cases action <;> decide

/-- The rule that a value names; an array or object cannot be a name at all. -/
def ofJson? (value : Json) : Result (Option Action) :=
  match value with
  | .str name => .ok (ofName? name)
  | .arr _ => .error (.structuredAction value)
  | .obj _ => .error (.structuredAction value)
  | _ => .ok none

/-- The rule that a value names. -/
def ofJson (value : Json) : Result Action := do
  match ← ofJson? value with
  | some action => return action
  | none => .error (.unknownRule value)

end Action

end FormulaEdit
