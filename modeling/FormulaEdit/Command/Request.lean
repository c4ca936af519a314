import FormulaEdit.Command.Arguments

/-!
# Requests

A request is a command whose needs have all been met.
-/

namespace FormulaEdit.Command

/-- What the command line asks for. -/
inductive Request where
  | parse (path : Path) (json : Bool)
  | find (path : Path) (cursor : Position)
  | render (path : Path) (highlight : Int) (out : Option Path)
  | dot (path : Path) (out : Option Path)
  | apply (path : Path) (cursor : Position) (action : Action) (params : List String)
      (stack out : Option Path)
  | replay (path stack : Path) (maxSteps : Option Int) (out : Option Path)
deriving Repr

/-- The request of a command and its values; none if something is missing. -/
def Request.ofValues? (verb : Verb) (values : Values) : Option Request := do
  let path ← values.path
  match verb with
  | .parse => return .parse path values.json
  | .find => return .find path ⟨← values.line, ← values.offset⟩
  | .render => return .render path (values.highlight.getD (-1)) values.out
  | .dot => return .dot path values.out
  | .apply =>
      return .apply path ⟨← values.line, ← values.offset⟩ (← values.rule) values.params
        values.stack values.out
  | .replay => return .replay path (← values.stack) values.maxSteps values.out

/-- The request of a command line. -/
def Request.read (arguments : List String) : Except Refusal Request := do
  let (verb, values) ← readCommand arguments
  match ofValues? verb values with
  | some request => return request
  | none => .error (.misuse "the following arguments are required: path")

/-- The paths that a request may read or write. -/
def Request.paths : Request → List Path
  | .parse path _ => [path]
  | .find path _ => [path]
  | .render path _ out => path :: out.toList
  | .dot path out => path :: out.toList
  | .apply path _ _ _ stack out => path :: stack.toList ++ out.toList
  | .replay path stack _ out => path :: stack :: out.toList

end FormulaEdit.Command
