import FormulaEdit.Numeral.Integer
import FormulaEdit.Pattern.Escape
import FormulaEdit.Text.Identifier

/-!
# Templates of replacements

A template is text with references to the groups of a match.  An escape that
is no letter, digit or backslash keeps its backslash.
-/

namespace FormulaEdit.Pattern

/-- A piece of a template. -/
inductive TemplatePart where
  | char (value : Char)
  | group (index : Nat)
deriving DecidableEq, Repr

/-- Why a text is no template for a pattern. -/
inductive TemplateError where
  | at (located : Located)
  | unknownGroup (name : String)
deriving DecidableEq, Repr

/-- The wording of a fault of a template. -/
def TemplateError.message (text : List Char) : TemplateError → String
  | .at located => located.message text
  | .unknownGroup name => s!"unknown group name {Text.quoted name}"

/-- A reference to a group by number; `back` is where the number starts. -/
def groupPart (pattern : Compiled) (index back : Nat) (cursor : Cursor) :
    Except TemplateError (List TemplatePart × Cursor) :=
  if pattern.groups < index then .error (.at (cursor.fault (.groupReference index) back))
  else .ok ([.group index], cursor)

/-- A reference by a name or a number between angle brackets. -/
def readNamedPart (pattern : Compiled) (cursor : Cursor) :
    Except TemplateError (List TemplatePart × Cursor) := do
  if cursor.peek ≠ ['<'] then .error (.at (cursor.fault .missingAngle 0))
  else
    let cursor ← cursor.advance.mapError .at
    let (name, cursor) ← (cursor.takeName '>').mapError .at
    if Text.isIdentifier name then
      match pattern.names.lookup (String.ofList name) with
      | some index => groupPart pattern index (name.length + 1) cursor
      | none => .error (.unknownGroup (String.ofList name))
    else
      match Numeral.readInteger name with
      | some (.ofNat index) => groupPart pattern index (name.length + 1) cursor
      | _ => .error (.at (cursor.fault (.groupName (String.ofList name)) (name.length + 1)))

/-- An escape that starts with a digit other than zero: three octal digits, or
else the number of a group. -/
def readDigitPart (pattern : Compiled) (c : Char) (cursor : Cursor) :
    Except TemplateError (List TemplatePart × Cursor) := do
  match cursor.peek with
  | [d] =>
      if isAsciiDigit d then
        let cursor ← cursor.advance.mapError .at
        match cursor.peek with
        | [e] =>
            if isOctal c && isOctal d && isOctal e then
              let cursor ← cursor.advance.mapError .at
              let code := valueIn 8 [c, d, e]
              if 0o377 < code then
                .error (.at (cursor.fault (.octalRange (String.ofList ['\\', c, d, e])) 4))
              else .ok ([.char (Char.ofNat code)], cursor)
            else groupPart pattern (valueIn 10 [c, d]) 2 cursor
        | _ => groupPart pattern (valueIn 10 [c, d]) 2 cursor
      else groupPart pattern (valueIn 10 [c]) 1 cursor
  | _ => groupPart pattern (valueIn 10 [c]) 1 cursor

/-- What an escape of a template stands for; it has been passed over. -/
def readTemplateEscape (pattern : Compiled) (c : Char) (cursor : Cursor) :
    Except TemplateError (List TemplatePart × Cursor) := do
  if c = 'g' then readNamedPart pattern cursor
  else if c = '0' then
    let (digits, cursor) ← (cursor.takeWhile isOctal 2).mapError .at
    .ok ([.char (Char.ofNat (valueIn 8 digits))], cursor)
  else if isAsciiDigit c then readDigitPart pattern c cursor
  else
    match controlEscape? c with
    | some code => .ok ([.char (Char.ofNat code)], cursor)
    | none =>
        if isAsciiLetter c then
          .error (.at (cursor.fault (.escape (String.ofList ['\\', c])) 2))
        else .ok ([.char '\\', .char c], cursor)

/-- Read the pieces of a template. -/
def readParts (pattern : Compiled) :
    (fuel : Nat) → Cursor → Except TemplateError (List TemplatePart)
  | 0, _ => .ok []
  | fuel + 1, cursor =>
      match cursor.peek with
      | [] => .ok []
      | ['\\', c] => do
          let cursor ← cursor.advance.mapError .at
          let (parts, cursor) ← readTemplateEscape pattern c cursor
          return parts ++ (← readParts pattern fuel cursor)
      | c :: _ => do
          let cursor ← cursor.advance.mapError .at
          return .char c :: (← readParts pattern fuel cursor)

/-- Read a template for a pattern. -/
def readTemplate (pattern : Compiled) (text : List Char) :
    Except TemplateError (List TemplatePart) := do
  let cursor ← (Cursor.ofText text).mapError .at
  readParts pattern (text.length + 1) cursor

end FormulaEdit.Pattern
