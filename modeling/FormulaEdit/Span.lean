/-!
# Positions and spans

Lines and offsets count from zero.  Both ends of a span belong to it, and a
span whose first line is negative stands for no place in the source.
-/

namespace FormulaEdit

/-- A place in a text: a line, and a character offset in it. -/
structure Position where
  line : Int
  offset : Int
deriving DecidableEq, Repr, Inhabited

namespace Position

/-- The first character of a text. -/
def start : Position := ⟨0, 0⟩

/-- Reading order: by line, then by offset. -/
def le (first second : Position) : Bool :=
  first.line < second.line || (first.line == second.line && first.offset ≤ second.offset)

/-- The place of the character that follows `c`, which stands in front of
`rest`.  A carriage return that is followed by a line feed ends no line of its
own. -/
def next (position : Position) (c : Char) (rest : List Char) : Position :=
  if c = '\n' || (c = '\r' && rest.head? ≠ some '\n') then ⟨position.line + 1, 0⟩
  else ⟨position.line, position.offset + 1⟩

end Position

/-- A range of a text from its first to its last character. -/
structure Span where
  first : Position
  last : Position
deriving DecidableEq, Repr, Inhabited

namespace Span

/-- The span of what has no place in the source. -/
def unknown : Span := ⟨⟨-1, -1⟩, ⟨-1, -1⟩⟩

/-- Whether a span is a place in the source. -/
def isKnown (span : Span) : Bool := 0 ≤ span.first.line

/-- Whether a position lies in a known span. -/
def contains (span : Span) (position : Position) : Bool :=
  span.isKnown && span.first.le position && position.le span.last

end Span

end FormulaEdit
