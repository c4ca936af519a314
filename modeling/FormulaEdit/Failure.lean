import FormulaEdit.Json.Display
import FormulaEdit.Json.Reader
import FormulaEdit.Pattern.Template
import FormulaEdit.Sexpr.Basic

/-!
# Failures

Everything that can go wrong with a formula, its arena, a rule, a recorded
stack or a file, each with its cause.  A rule that does not match is no
failure.  `Failure.isReported` tells apart what the command line reports as a
fault of its input from misuse that ends the program.
-/

namespace FormulaEdit

/-- How an arena can break its rules. -/
inductive ArenaFault where
  | outside (id : Int) (size : Nat)
  | parentCycle (id : Int)
  | childCycle (id : Int)
  | deletedParent (id parent : Int)
  | badRoot (root : Int)
  | slotMismatch (slot : Nat) (id : Int)
  | secondRoot (id root : Int)
  | notListedOnce (parent child : Int)
  | deletedChild (id child : Int)
  | strayChild (child id parent : Int)
deriving DecidableEq, Repr

/-- The wording of a broken arena rule. -/
def ArenaFault.message : ArenaFault → String
  | .outside id size => s!"node id {id} is outside the arena (size {size})"
  | .parentCycle id => s!"parent cycle reached from node {id}"
  | .childCycle id => s!"child cycle reached from node {id}"
  | .deletedParent id parent => s!"node {id} points at deleted parent {parent}"
  | .badRoot root => s!"root {root} is not a live parentless node"
  | .slotMismatch slot id => s!"node at slot {slot} carries id {id}"
  | .secondRoot id root => s!"node {id} is parentless but the root is {root}"
  | .notListedOnce parent child => s!"parent {parent} does not list child {child} exactly once"
  | .deletedChild id child => s!"node {id} references deleted child {child}"
  | .strayChild child id parent => s!"child {child} of {id} points at parent {parent}"

/-- What is wrong with the parameters of a rule. -/
inductive ParamsFault where
  | direction (got : Json)
  | source (got : Json)
  | target (got : Json)
  | count (got : Json)
  | pattern (text : List Char) (cause : Pattern.SyntaxError)
  | reserved (id : Int) (token updated : String)

/-- The wording of a fault of parameters. -/
def ParamsFault.message : ParamsFault → String
  | .direction got => s!"move needs params.direction 'l' or 'r' (got {got.display})"
  | .source got => s!"replace needs a non-empty params.source (got {got.display})"
  | .target got => s!"replace needs a string params.target (got {got.display})"
  | .count got => s!"replace params.count must be a non-negative integer (got {got.display})"
  | .pattern text cause => s!"replace params.source is not a valid regex: {cause.message text}"
  | .reserved id token updated =>
      s!"replace would turn node {id} token {Text.quoted token} into {Text.quoted updated}; " ++
        "empty tokens and 'list' on compound nodes are reserved"

/-- What is wrong with a recorded condition. -/
inductive ConditionFault where
  | notObject (got : Json)
  | missing (members : Json.Members) (key : String)
  | tokenValue (got : Json)
  | depthValue (got : Json)
  | flagValue (got : Json)
  | unknownFlag (name : String)
  | unknownKind (got : Json)

/-- The wording of a fault of a condition. -/
def ConditionFault.message : ConditionFault → String
  | .notObject got => s!"condition must be a JSON object (got {got.display})"
  | .missing members key =>
      s!"condition {(Json.obj members).display} is missing {Text.quoted key}"
  | .tokenValue got => s!"token condition value must be a string (got {got.display})"
  | .depthValue got => s!"depth condition value must be an integer (got {got.display})"
  | .flagValue got => s!"flag condition value must be a boolean (got {got.display})"
  | .unknownFlag name =>
      s!"unknown node flag {Text.quoted name} (expected one of should_break, should_in_bracket)"
  | .unknownKind got => s!"unknown condition kind {got.display}"

/-- What is wrong with a recorded stack. -/
inductive StackFault where
  | notJson (cause : Json.ReadError)
  | notArray (got : Json)
  | recordNotObject (got : Json)
  | unknownAction (got : Json)
  | paramsNotObject (got : Json)
  | badCondition (action : String) (cause : ConditionFault)
  | missingFile (path : String)

/-- The wording of a fault of a stack. -/
def StackFault.message : StackFault → String
  | .notJson cause => s!"rule stack is not valid JSON: {cause.message}"
  | .notArray got => s!"rule stack must be a JSON array (got {got.typeName})"
  | .recordNotObject got => s!"rule record must be a JSON object (got {got.display})"
  | .unknownAction got => s!"rule record has unknown action {got.display}"
  | .paramsNotObject got => s!"rule record params must be a JSON object (got {got.display})"
  | .badCondition action cause =>
      s!"rule record for {Text.quoted action} has a bad condition: {cause.message}"
  | .missingFile path => s!"missing rule stack at {path}"

/-- What is wrong with a path of the file system. -/
inductive FileFault where
  | missing
  | exists
  | notDirectory
  | isDirectory
deriving DecidableEq, Repr

/-- The number and wording of a fault of a path. -/
def FileFault.message : FileFault → String
  | .missing => "[Errno 2] No such file or directory"
  | .exists => "[Errno 17] File exists"
  | .notDirectory => "[Errno 20] Not a directory"
  | .isDirectory => "[Errno 21] Is a directory"

/-- Why an operation gave no result. -/
inductive Failure where
  | malformed (cause : Sexpr.ReadError)
  | arena (cause : ArenaFault)
  | reorder (token : String) (parent : Option String)
  | params (cause : ParamsFault)
  | unknownRule (name : Json)
  | condition (cause : ConditionFault)
  | stack (cause : StackFault)
  | replayLimit (index : Nat) (action condition : String) (budget : Int)
  | structuredAction (got : Json)
  | template (text : List Char) (cause : Pattern.TemplateError)
  | repetition
  | oversized (digits : Nat)
  | unwritable
  | count
  | notListed (id : Int)
  | missingPart (id : Int)
  | slotRange
  | indexRange
  | file (cause : FileFault) (path : String)

namespace Failure

/-- The wording of a failure. -/
def message : Failure → String
  | .malformed cause => cause.message
  | .arena cause => cause.message
  | .reorder token parent =>
      let place := match parent with
        | none => "the root"
        | some token => Text.quoted token
      s!"cannot reorder {Text.quoted token} under {place}; " ++
        "only ['*', '+', '=', 'and', 'or'] allow it"
  | .params cause => cause.message
  | .unknownRule name =>
      s!"unknown rule {name.display} " ++
        "(known: changeBracket, changeBreak, flipCmp, move, replace, squashNegation, toImp)"
  | .condition cause => cause.message
  | .stack cause => cause.message
  | .replayLimit index action guarded budget =>
      s!"rule #{index} ({action}, condition: {guarded}) " ++
        s!"did not reach a fixpoint within {budget} steps"
  | .structuredAction got => s!"unhashable type: '{got.typeName}'"
  | .template text cause => cause.message text
  | .repetition => "the repetition number is too large"
  | .oversized digits => Numeral.oversizedText digits
  | .unwritable => Numeral.unwritableText
  | .count => "Python int too large to convert to C ssize_t"
  | .notListed id => s!"{id} is not in list"
  | .missingPart id => toString id
  | .slotRange => "list assignment index out of range"
  | .indexRange => "list index out of range"
  | .file cause path => s!"{cause.message}: {Text.quoted path}"

/-- Whether a failure is a fault of the input that the command line reports,
rather than misuse that ends the program. -/
def isReported : Failure → Bool
  | .malformed _ => true
  | .arena _ => true
  | .reorder _ _ => true
  | .params _ => true
  | .unknownRule _ => true
  | .condition _ => true
  | .stack _ => true
  | .replayLimit _ _ _ _ => true
  | _ => false

end Failure

/-- A computation that may fail. -/
abbrev Result := Except Failure

end FormulaEdit
