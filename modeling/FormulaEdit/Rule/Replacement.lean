import FormulaEdit.Pattern.Quote
import FormulaEdit.Pattern.Reader
import FormulaEdit.Pattern.Substitute
import FormulaEdit.Rule.Outcome

/-!
# Replacing inside tokens

A replacement is made in every live token but the marker of plain lists, not
only at the focus.  What is replaced is whatever a pattern matches; a plain
text is quoted first.  No token may become empty, and no operator may become
the marker of lists.
-/

namespace FormulaEdit.Rule

/-- What to replace and by what.  A count of zero means all occurrences. -/
structure Replacement where
  pattern : Pattern.Compiled
  template : List Char
  count : Nat

namespace Replacement

/-- The text to be replaced. -/
def readSource (params : Json.Members) : Result (List Char) :=
  match (params.get? "source").getD .null with
  | .str text => if text.isEmpty then .error (.params (.source (.str text))) else .ok text.toList
  | got => .error (.params (.source got))

/-- The text to be put in its place. -/
def readTarget (params : Json.Members) : Result (List Char) :=
  match (params.get? "target").getD .null with
  | .str text => .ok text.toList
  | got => .error (.params (.target got))

/-- The number of occurrences to be replaced in each token. -/
def readCount (params : Json.Members) : Result Nat :=
  match (params.get? "count").getD (.int 1) with
  | .int (.ofNat count) => .ok count
  | got => .error (.params (.count got))

/-- Whether the source is to be read as a pattern. -/
def readsPattern (params : Json.Members) : Bool :=
  ((params.get? "regex").getD .null).isTruthy

/-- The pattern to be matched. -/
def readPattern (params : Json.Members) (source : List Char) : Result Pattern.Compiled :=
  match Pattern.compile (if readsPattern params then source else Pattern.quote source) with
  | .ok pattern => .ok pattern
  | .error .repetitionTooLarge => .error .repetition
  | .error (.oversized digits) => .error (.oversized digits)
  | .error cause => .error (.params (.pattern source cause))

/-- The replacement that parameters ask for. -/
def ofParams (params : Json.Members) : Result Replacement := do
  let source ← readSource params
  let target ← readTarget params
  let count ← readCount params
  let pattern ← readPattern params source
  let template := if readsPattern params then target else Pattern.quoteTemplate target
  return { pattern := pattern, template := template, count := count }

/-- The largest number of replacements that can be asked for, and one more. -/
def countBound : Nat := Nat.pow 2 63

/-- The text of a token after the replacement. -/
def apply (replacement : Replacement) (token : List Char) : Result (List Char) :=
  if countBound ≤ replacement.count then .error .count
  else
    match Pattern.readTemplate replacement.pattern replacement.template with
    | .ok template => .ok (replacement.pattern.replace template replacement.count token)
    | .error cause => .error (.template replacement.template cause)

/-- Whether a text may become the token of a node. -/
def isAllowed (node : Node) (updated : String) : Bool :=
  !updated.isEmpty && (node.children.isEmpty || updated != Node.listMarker)

/-- A node after the replacement, and whether it changed. -/
def onNode (replacement : Replacement) (node : Node) : Result (Bool × Node) :=
  if !node.isLive || node.isPlainList then .ok (false, node)
  else do
    let updated := String.ofList (← replacement.apply node.token.toList)
    if isAllowed node updated then
      return (updated != node.token, { node with token := updated })
    else .error (.params (.reserved node.id node.token updated))

/-- Nodes after the replacement, and whether one of them changed. -/
def onNodes (replacement : Replacement) : List Node → Result (Bool × List Node)
  | [] => .ok (false, [])
  | node :: rest => do
      let (first, node) ← replacement.onNode node
      let (later, rest) ← replacement.onNodes rest
      return (first || later, node :: rest)

end Replacement

/-- Replace inside the tokens of an arena. -/
def replace (arena : Arena) (focus : Int) (condition : Condition) (params : Json.Members) :
    Result Outcome := do
  let replacement ← Replacement.ofParams params
  guarded arena focus condition fun _ => do
    let (changed, nodes) ← replacement.onNodes arena.slots.toList
    if changed then return .edited { arena with slots := nodes.toArray }
    else return .unchanged arena

end FormulaEdit.Rule
