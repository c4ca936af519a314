import FormulaEdit.Span
import FormulaEdit.Text.Blank

/-!
# Lexemes

A formula text is a sequence of parentheses and atoms with white space between
them.  An atom may hold string literals and backslash pairs, inside which
white space and parentheses are ordinary characters.  The scanner looks at
each character once; only the end of the text can find it in a wrong state.
-/

namespace FormulaEdit.Sexpr

/-- A parenthesis or an atom with its place. -/
inductive Lexeme where
  | opening (position : Position)
  | closing (position : Position)
  | atom (text : String) (span : Span)
deriving DecidableEq, Repr

/-- The characters of a lexeme. -/
def Lexeme.text : Lexeme → String
  | .opening _ => "("
  | .closing _ => ")"
  | .atom text _ => text

/-- Where a lexeme starts. -/
def Lexeme.start : Lexeme → Position
  | .opening position => position
  | .closing position => position
  | .atom _ span => span.first

/-- Where the scanner stands.  An atom is kept with its start and its
characters so far, the last one first. -/
inductive Mode where
  | gap
  | atom (start last : Position) (text : List Char)
  | atomEscape (start slash : Position) (text : List Char)
  | literal (start quote : Position) (text : List Char)
  | literalEscape (start quote : Position) (text : List Char)
deriving DecidableEq, Repr

namespace Mode

/-- The atom that has been scanned in full. -/
def atomLexeme (start last : Position) (text : List Char) : Lexeme :=
  .atom (String.ofList text.reverse) ⟨start, last⟩

/-- Go on inside an atom with a character that belongs to it. -/
def extend (start position : Position) (text : List Char) (c : Char) : Mode :=
  if c = '"' then .literal start position (c :: text)
  else if c = '\\' then .atomEscape start position (c :: text)
  else .atom start position (c :: text)

/-- Take a character outside every literal and escape: the lexeme it makes on
its own, and the mode after it. -/
def outside (position : Position) (c : Char) : List Lexeme × Mode :=
  if Text.isBlank c then ([], .gap)
  else if c = '(' then ([.opening position], .gap)
  else if c = ')' then ([.closing position], .gap)
  else ([], extend position position [] c)

/-- Whether a character ends an atom. -/
def isDelimiter (c : Char) : Bool :=
  Text.isBlank c || c = '(' || c = ')'

/-- Take one character: the lexemes that it completes, and the mode after it. -/
def step (position : Position) (c : Char) : Mode → List Lexeme × Mode
  | .gap => outside position c
  | .atom start last text =>
      if isDelimiter c then
        let (made, mode) := outside position c
        (atomLexeme start last text :: made, mode)
      else ([], extend start position text c)
  | .atomEscape start _ text => ([], .atom start position (c :: text))
  | .literal start quote text =>
      if c = '"' then ([], .atom start position (c :: text))
      else if c = '\\' then ([], .literalEscape start quote (c :: text))
      else ([], .literal start quote (c :: text))
  | .literalEscape start quote text => ([], .literal start quote (c :: text))

end Mode

/-- Scan a text from a mode and a position. -/
def scan : Mode → Position → List Char → List Lexeme × Mode
  | mode, _, [] => ([], mode)
  | mode, position, c :: rest =>
      let (made, mode) := mode.step position c
      let (later, final) := scan mode (position.next c rest) rest
      (made ++ later, final)

end FormulaEdit.Sexpr
