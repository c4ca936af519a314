import FormulaEdit.Arena.Basic

/-!
# Conditions

A condition says where a recorded rule may be applied again.  It is plain
data: one of a few tests of a node, or two conditions together.
-/

namespace FormulaEdit

/-- A layout flag of a node. -/
inductive Flag where
  | breaksLine
  | bracketed
deriving DecidableEq, Repr

namespace Flag

/-- The recorded name of a flag. -/
def name : Flag → String
  | .breaksLine => "should_break"
  | .bracketed => "should_in_bracket"

/-- The flag of a recorded name. -/
def ofName? (name : String) : Option Flag :=
  if name = "should_break" then some .breaksLine
  else if name = "should_in_bracket" then some .bracketed
  else none

@[simp] theorem ofName?_name (flag : Flag) : ofName? flag.name = some flag := by
  cases flag <;> decide

/-- The value of a flag at a node. -/
def get : Flag → Node → Bool
  | .breaksLine, node => node.breaksLine
  | .bracketed, node => node.bracketed

end Flag

/-- Where a rule may be applied. -/
inductive Condition where
  | always
  | tokenIs (token : String)
  | depthIs (depth : Int)
  | flagIs (flag : Flag) (value : Bool)
  | both (first second : Condition)
deriving DecidableEq, Repr, Inhabited

namespace Condition

/-- Whether a condition holds at a node.  The second part of a pair is only
looked at when the first one holds. -/
def holds (arena : Arena) (node : Node) : Condition → Result Bool
  | .always => .ok true
  | .tokenIs token => .ok (node.token == token)
  | .depthIs depth => do return ((← arena.depth node : Nat) : Int) == depth
  | .flagIs flag value => .ok (flag.get node == value)
  | .both first second => do
      if ← first.holds arena node then second.holds arena node else return false

/-- A condition in words. -/
def text : Condition → String
  | .always => "true"
  | .tokenIs token => s!"token == {Text.quoted token}"
  | .depthIs depth => s!"depth == {depth}"
  | .flagIs flag value => s!"{flag.name} == {Json.displayBool value}"
  | .both first second => s!"{first.text} and {second.text}"

/-- Whether the depths that a condition names have no more digits than a limit
allows. -/
def fits (limit : Option Nat) : Condition → Bool
  | .depthIs depth => Numeral.fits limit depth
  | .both first second => first.fits limit && second.fits limit
  | _ => true

/-- A condition as it is recorded. -/
def toJson : Condition → Json
  | .always => .obj [("kind", .str "always")]
  | .tokenIs token => .obj [("kind", .str "token"), ("value", .str token)]
  | .depthIs depth => .obj [("kind", .str "depth"), ("value", .int depth)]
  | .flagIs flag value =>
      .obj [("kind", .str "flag"), ("flag", .str flag.name), ("value", .bool value)]
  | .both first second =>
      .obj [("kind", .str "and"), ("left", first.toJson), ("right", second.toJson)]

/-- The kinds of recorded conditions. -/
inductive Kind where
  | always
  | token
  | depth
  | flag
  | both
deriving DecidableEq, Repr

/-- The kind that a recorded condition names. -/
def Kind.ofName? (name : String) : Option Kind :=
  if name = "always" then some .always
  else if name = "token" then some .token
  else if name = "depth" then some .depth
  else if name = "flag" then some .flag
  else if name = "and" then some .both
  else none

/-- The kind of a recorded condition. -/
def kindOf (members : Json.Members) : Except ConditionFault Kind :=
  let kind := (members.get? "kind").getD .null
  match kind with
  | .str name =>
      match Kind.ofName? name with
      | some kind => .ok kind
      | none => .error (.unknownKind kind)
  | kind => .error (.unknownKind kind)

/-- A member that a recorded condition needs. -/
def needed (members : Json.Members) (key : String) : Except ConditionFault Json :=
  match members.get? key with
  | some value => .ok value
  | none => .error (.missing members key)

/-- A recorded test of the token. -/
def readToken (members : Json.Members) : Except ConditionFault Condition := do
  match ← needed members "value" with
  | .str token => return .tokenIs token
  | got => .error (.tokenValue got)

/-- A recorded test of the depth. -/
def readDepth (members : Json.Members) : Except ConditionFault Condition := do
  match ← needed members "value" with
  | .int depth => return .depthIs depth
  | got => .error (.depthValue got)

/-- A recorded test of a flag.  Its value is looked at before its name. -/
def readFlag (members : Json.Members) : Except ConditionFault Condition := do
  match ← needed members "value" with
  | .bool value =>
      let name := (← needed members "flag").plainText
      match Flag.ofName? name with
      | some flag => return .flagIs flag value
      | none => .error (.unknownFlag name)
  | got => .error (.flagValue got)

mutual

/-- Read a recorded condition. -/
def ofJson : Json → Except ConditionFault Condition
  | .obj members => do
      match ← kindOf members with
      | .always => return .always
      | .token => readToken members
      | .depth => readDepth members
      | .flag => readFlag members
      | .both =>
          match ofMember "left" members with
          | none => .error (.missing members "left")
          | some first =>
              let first ← first
              match ofMember "right" members with
              | none => .error (.missing members "right")
              | some second => return .both first (← second)
  | got => .error (.notObject got)

/-- Read the condition that a member of an object holds. -/
def ofMember (name : String) : List (String × Json) → Option (Except ConditionFault Condition)
  | [] => none
  | (key, value) :: rest => if key = name then some (ofJson value) else ofMember name rest

end

end Condition

end FormulaEdit
