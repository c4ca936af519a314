import FormulaEdit.Sexpr.Lexeme
import FormulaEdit.Text.Quoted

/-!
# Positioned S-expressions

A formula text holds exactly one parenthesised compound.  Faults of the
lexemes are reported before faults of their nesting.
-/

namespace FormulaEdit.Sexpr

/-- An atom or a parenthesised list of expressions, with its place. -/
inductive Expr where
  | atom (text : String) (span : Span)
  | compound (items : List Expr) (span : Span)
deriving Repr, Inhabited

namespace Expr

/-- The place of an expression. -/
def span : Expr → Span
  | .atom _ span => span
  | .compound _ span => span

/-- The text of an atom. -/
def atomText? : Expr → Option String
  | .atom text _ => some text
  | .compound _ _ => none

/-- The atom that heads a compound. -/
def head? : Expr → Option String
  | .atom _ _ => none
  | .compound items _ => items.head?.bind atomText?

end Expr

/-- Why a text is no formula. -/
inductive ReadError where
  | danglingEscape (slash : Position)
  | unterminatedLiteral (quote : Position)
  | empty
  | noOpening (found : String)
  | unterminatedCompound (opening : Position)
  | trailing (found : String) (position : Position)
deriving DecidableEq, Repr

/-- A position in a message. -/
def placeText (position : Position) : String :=
  s!"line {position.line}, offset {position.offset}"

/-- The wording of a fault. -/
def ReadError.message : ReadError → String
  | .danglingEscape slash => s!"dangling escape at {placeText slash}"
  | .unterminatedLiteral quote => s!"unterminated string literal starting at {placeText quote}"
  | .empty => "empty input: expected a parenthesized formula"
  | .noOpening found => s!"unexpected {Text.quoted found} at the beginning: expected '('"
  | .unterminatedCompound opening => s!"unterminated compound opened at {placeText opening}"
  | .trailing found position =>
      s!"unexpected {Text.quoted found} after the formula at {placeText position}"

/-- The lexemes of a text whose scan ended in a mode. -/
def finish (lexemes : List Lexeme) : Mode → Except ReadError (List Lexeme)
  | .gap => .ok lexemes
  | .atom start last text => .ok (lexemes ++ [Mode.atomLexeme start last text])
  | .atomEscape _ slash _ => .error (.danglingEscape slash)
  | .literal _ quote _ => .error (.unterminatedLiteral quote)
  | .literalEscape _ quote _ => .error (.unterminatedLiteral quote)

/-- Split a text into lexemes. -/
def lexemes (text : List Char) : Except ReadError (List Lexeme) :=
  let (made, mode) := scan .gap .start text
  finish made mode

/-- A compound whose closing parenthesis is still to come.  Its items are
kept the last one first. -/
structure Unclosed where
  opening : Position
  items : List Expr

/-- The compound that a closing parenthesis completes. -/
def Unclosed.close (compound : Unclosed) (closing : Position) : Expr :=
  .compound compound.items.reverse ⟨compound.opening, closing⟩

/-- Add an item at the end. -/
def Unclosed.push (compound : Unclosed) (item : Expr) : Unclosed :=
  { compound with items := item :: compound.items }

/-- Complete the innermost unclosed compound and those around it.  The result
is the outermost one, with the lexemes behind it. -/
def assemble : Unclosed → List Unclosed → List Lexeme → Except ReadError (Expr × List Lexeme)
  | inner, _, [] => .error (.unterminatedCompound inner.opening)
  | inner, outer, .opening position :: rest => assemble ⟨position, []⟩ (inner :: outer) rest
  | inner, outer, .atom text span :: rest => assemble (inner.push (.atom text span)) outer rest
  | inner, [], .closing position :: rest => .ok (inner.close position, rest)
  | inner, next :: outer, .closing position :: rest =>
      assemble (next.push (inner.close position)) outer rest

/-- The compound that a list of lexemes makes up. -/
def ofLexemes : List Lexeme → Except ReadError Expr
  | [] => .error .empty
  | .opening position :: rest => do
      let (expr, rest) ← assemble ⟨position, []⟩ [] rest
      match rest with
      | [] => return expr
      | extra :: _ => .error (.trailing extra.text extra.start)
  | first :: _ => .error (.noOpening first.text)

/-- Read the one compound of a text. -/
def readChars (text : List Char) : Except ReadError Expr := do
  ofLexemes (← lexemes text)

/-- Read the one compound of a text. -/
def read (text : String) : Except ReadError Expr :=
  readChars text.toList

end FormulaEdit.Sexpr
