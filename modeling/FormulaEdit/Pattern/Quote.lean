/-!
# Texts as patterns

A text can be written as a pattern that matches just this text, and as a
template that stands for it.
-/

namespace FormulaEdit.Pattern

/-- The characters that are written behind a backslash in a quoted pattern. -/
def quotedChars : List Char :=
  ['(', ')', '[', ']', '\x7b', '\x7d', '?', '*', '+', '-', '|', '^', '$', '\\', '.', '&', '~',
    '#', ' ', '\t', '\n', '\r', '\x0b', '\x0c']

/-- Whether a character is one of them. -/
def isQuoted (c : Char) : Bool := quotedChars.contains c

/-- Whether a character is a backslash. -/
def isBackslash (c : Char) : Bool := c == '\\'

/-- Write every character of a class behind a backslash. -/
def escapeChars (escaped : Char → Bool) (text : List Char) : List Char :=
  text.flatMap fun c => if escaped c then ['\\', c] else [c]

/-- The pattern that matches a text as it stands. -/
def quote (text : List Char) : List Char := escapeChars isQuoted text

/-- The template that stands for a text. -/
def quoteTemplate (text : List Char) : List Char := escapeChars isBackslash text

end FormulaEdit.Pattern
