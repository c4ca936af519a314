import FormulaEdit.Decimal.Notation
import FormulaEdit.Json.Basic
import FormulaEdit.Text.Quoted

/-!
# JSON values in messages

How a message shows a value that it rejects, and how it names the value's type.
-/

namespace FormulaEdit.Json

/-- The names of the numbers without digits in messages. -/
def displayNames : Decimal.SpecialNames := ⟨"inf", "nan"⟩

/-- The spelling of a truth value in messages. -/
def displayBool (value : Bool) : String :=
  if value then "True" else "False"

mutual

/-- A value as a message shows it. -/
def display : Json → String
  | .null => "None"
  | .bool value => displayBool value
  | .int value => toString value
  | .float value => String.ofList (value.text displayNames)
  | .str value => Text.quoted value
  | .arr items => "[" ++ ", ".intercalate (displayItems items) ++ "]"
  | .obj members => "\x7b" ++ ", ".intercalate (displayMembers members) ++ "\x7d"

/-- The items of an array as a message shows them. -/
def displayItems : List Json → List String
  | [] => []
  | item :: rest => item.display :: displayItems rest

/-- The members of an object as a message shows them. -/
def displayMembers : List (String × Json) → List String
  | [] => []
  | (key, value) :: rest => (Text.quoted key ++ ": " ++ value.display) :: displayMembers rest

end

/-- The name of a value's type in messages. -/
def typeName : Json → String
  | .null => "NoneType"
  | .bool _ => "bool"
  | .int _ => "int"
  | .float _ => "float"
  | .str _ => "str"
  | .arr _ => "list"
  | .obj _ => "dict"

/-- A value as part of running text: a string stands for itself. -/
def plainText : Json → String
  | .str value => value
  | value => value.display

end FormulaEdit.Json
