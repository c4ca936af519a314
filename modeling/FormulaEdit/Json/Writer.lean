import FormulaEdit.Decimal.Notation
import FormulaEdit.Json.Basic
import FormulaEdit.Text.Hex

/-!
# Writing JSON

The written text is plain ASCII.  In the indented layout every item stands on
a line of its own, two spaces deeper than its container; empty containers stay
closed up.
-/

namespace FormulaEdit.Json

/-- The names of the numbers without digits in JSON text. -/
def writtenNames : Decimal.SpecialNames := ⟨"Infinity", "NaN"⟩

/-- A UTF-16 unit as an escape. -/
def unitEscape (unit : Nat) : List Char :=
  '\\' :: 'u' :: Text.hexDigits 4 unit

/-- One character of a written string. -/
def writtenChar (c : Char) : List Char :=
  if c = '"' then ['\\', '"']
  else if c = '\\' then ['\\', '\\']
  else if c = '\n' then ['\\', 'n']
  else if c = '\r' then ['\\', 'r']
  else if c = '\t' then ['\\', 't']
  else if c = '\x08' then ['\\', 'b']
  else if c = '\x0c' then ['\\', 'f']
  else if 0x20 ≤ c.toNat && c.toNat ≤ 0x7e then [c]
  else if c.toNat < 0x10000 then unitEscape c.toNat
  else
    unitEscape (0xd800 + (c.toNat - 0x10000) / 0x400) ++
      unitEscape (0xdc00 + (c.toNat - 0x10000) % 0x400)

/-- A written string with its quotation marks. -/
def writtenString (text : String) : List Char :=
  '"' :: text.toList.flatMap writtenChar ++ ['"']

/-- A line end followed by the indentation of a level. -/
def newLine (level : Nat) : List Char :=
  '\n' :: List.replicate (2 * level) ' '

mutual

/-- A value in the indented layout, inside a container of the given level. -/
def writeIndented (level : Nat) : Json → List Char
  | .null => ['n', 'u', 'l', 'l']
  | .bool true => ['t', 'r', 'u', 'e']
  | .bool false => ['f', 'a', 'l', 's', 'e']
  | .int value => (toString value).toList
  | .float value => value.text writtenNames
  | .str value => writtenString value
  | .arr [] => ['[', ']']
  | .arr (item :: rest) =>
      '[' :: newLine (level + 1) ++ writeIndented (level + 1) item ++
        writeIndentedItems (level + 1) rest ++ newLine level ++ [']']
  | .obj [] => ['\x7b', '\x7d']
  | .obj ((key, value) :: rest) =>
      '\x7b' :: newLine (level + 1) ++ writtenString key ++ [':', ' '] ++
        writeIndented (level + 1) value ++ writeIndentedMembers (level + 1) rest ++
        newLine level ++ ['\x7d']

/-- The further items of an array. -/
def writeIndentedItems (level : Nat) : List Json → List Char
  | [] => []
  | item :: rest =>
      ',' :: newLine level ++ writeIndented level item ++ writeIndentedItems level rest

/-- The further members of an object. -/
def writeIndentedMembers (level : Nat) : List (String × Json) → List Char
  | [] => []
  | (key, value) :: rest =>
      ',' :: newLine level ++ writtenString key ++ [':', ' '] ++
        writeIndented level value ++ writeIndentedMembers level rest

end

/-- A value in the indented layout. -/
def indented (value : Json) : String :=
  String.ofList (value.writeIndented 0)

mutual

/-- A value on one line, in front of text that follows it. -/
def writeCompact (after : List Char) : Json → List Char
  | .null => 'n' :: 'u' :: 'l' :: 'l' :: after
  | .bool true => 't' :: 'r' :: 'u' :: 'e' :: after
  | .bool false => 'f' :: 'a' :: 'l' :: 's' :: 'e' :: after
  | .int value => (toString value).toList ++ after
  | .float value => value.text writtenNames ++ after
  | .str value => writtenString value ++ after
  | .arr items => '[' :: writeCompactItems (']' :: after) items
  | .obj members => '\x7b' :: writeCompactMembers ('\x7d' :: after) members

/-- Items on one line, with commas between them. -/
def writeCompactItems (after : List Char) : List Json → List Char
  | [] => after
  | [item] => writeCompact after item
  | item :: rest => writeCompact (',' :: ' ' :: writeCompactItems after rest) item

/-- Members on one line, with commas between them. -/
def writeCompactMembers (after : List Char) : List (String × Json) → List Char
  | [] => after
  | [(key, value)] => writtenString key ++ ':' :: ' ' :: writeCompact after value
  | (key, value) :: rest =>
      writtenString key ++ ':' :: ' ' ::
        writeCompact (',' :: ' ' :: writeCompactMembers after rest) value

end

/-- A value on one line. -/
def compact (value : Json) : String :=
  String.ofList (value.writeCompact [])

end FormulaEdit.Json
