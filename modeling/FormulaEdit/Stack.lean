import FormulaEdit.Condition
import FormulaEdit.Json.Writer
import FormulaEdit.Rule.Action

/-!
# Recorded rules

A record is one edit that can be repeated: a rule, its parameters and its
condition.  A stack is a list of records in the order of the edits; its text
is a JSON array.
-/

namespace FormulaEdit

/-- An edit that can be repeated. -/
structure Record where
  action : Action
  params : Json.Members := []
  condition : Condition := .always
deriving Inhabited

namespace Record

/-- A record as a JSON object. -/
def toJson (record : Record) : Json :=
  .obj [
    ("action", .str record.action.name),
    ("params", .obj record.params),
    ("condition", record.condition.toJson)]

/-- The rule of a record. -/
def readAction (members : Json.Members) : Result Action := do
  let value := (members.get? "action").getD .null
  match ← Action.ofJson? value with
  | some action => return action
  | none => .error (.stack (.unknownAction value))

/-- The parameters of a record; it may have none. -/
def readParams (members : Json.Members) : Result Json.Members :=
  match (members.get? "params").getD (.obj []) with
  | .obj params => .ok params
  | got => .error (.stack (.paramsNotObject got))

/-- The condition of a record; it may have none. -/
def readCondition (action : Action) (members : Json.Members) : Result Condition :=
  match members.get? "condition" with
  | none => .ok .always
  | some value =>
      match Condition.ofJson value with
      | .ok condition => .ok condition
      | .error cause => .error (.stack (.badCondition action.name cause))

/-- Read a record. -/
def ofJson : Json → Result Record
  | .obj members => do
      let action ← readAction members
      let params ← readParams members
      let condition ← readCondition action members
      return { action := action, params := params, condition := condition }
  | got => .error (.stack (.recordNotObject got))

end Record

/-- Recorded rules in the order of the edits. -/
structure Stack where
  records : List Record := []
deriving Inhabited

namespace Stack

/-- Add a record at the end. -/
def push (stack : Stack) (record : Record) : Stack :=
  { stack with records := stack.records ++ [record] }

/-- The number of records. -/
def size (stack : Stack) : Nat := stack.records.length

@[simp] theorem size_push (stack : Stack) (record : Record) :
    (stack.push record).size = stack.size + 1 := by
  simp [push, size]

/-- The record of an index; a negative one counts from the end. -/
def get (stack : Stack) (index : Int) : Result Record :=
  let index := if index < 0 then index + stack.size else index
  if index < 0 then .error .indexRange
  else
    match stack.records[index.toNat]? with
    | some record => .ok record
    | none => .error .indexRange

/-- A stack as a JSON array. -/
def toJson (stack : Stack) : Json := .arr (stack.records.map (·.toJson))

/-- The text of a stack. -/
def text (stack : Stack) : String := stack.toJson.indented

/-- Read a stack. -/
def ofJson : Json → Result Stack
  | .arr items => do return { records := ← items.mapM Record.ofJson }
  | got => .error (.stack (.notArray got))

/-- Read the text of a stack.  A whole number with too many digits is not a
fault of the stack. -/
def ofText (limit : Option Nat) (text : String) : Result Stack :=
  match Json.read limit text with
  | .ok value => ofJson value
  | .error (.malformed cause) => .error (.stack (.notJson cause))
  | .error (.oversized digits) => .error (.oversized digits)

end Stack

end FormulaEdit
