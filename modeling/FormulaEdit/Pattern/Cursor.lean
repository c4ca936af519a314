import FormulaEdit.Pattern.Fault

/-!
# Reading patterns token by token

A token is one character, or a backslash with the character behind it.  A
backslash at the very end is a fault as soon as it comes next.
-/

namespace FormulaEdit.Pattern

/-- A place in a pattern text and what is left from there. -/
structure Cursor where
  position : Nat
  rest : List Char
deriving DecidableEq, Repr

namespace Cursor

/-- A fault some characters in front of the place of a cursor. -/
def fault (cursor : Cursor) (fault : Fault) (back : Nat) : Located :=
  ⟨fault, cursor.position - back⟩

/-- A cursor that does not stand in front of a lone backslash. -/
def checked (cursor : Cursor) : Except Located Cursor :=
  if cursor.rest = ['\\'] then .error ⟨.endOfPattern, cursor.position⟩ else .ok cursor

/-- The start of a text. -/
def ofText (text : List Char) : Except Located Cursor :=
  checked ⟨0, text⟩

/-- The next token; none at the end. -/
def peek (cursor : Cursor) : List Char :=
  match cursor.rest with
  | '\\' :: c :: _ => ['\\', c]
  | c :: _ => [c]
  | [] => []

/-- The cursor behind the next token. -/
def advance (cursor : Cursor) : Except Located Cursor :=
  let length := cursor.peek.length
  checked ⟨cursor.position + length, cursor.rest.drop length⟩

/-- The next tokens of a class of characters, at most `count`. -/
def takeWhile (accepts : Char → Bool) : (count : Nat) → Cursor →
    Except Located (List Char × Cursor)
  | 0, cursor => .ok ([], cursor)
  | count + 1, cursor =>
      match cursor.peek with
      | [c] =>
          if accepts c then do
            let (taken, cursor) ← takeWhile accepts count (← cursor.advance)
            return (c :: taken, cursor)
          else .ok ([], cursor)
      | _ => .ok ([], cursor)

/-- The text up to a terminator, which is passed over; it must not be empty.
`found` holds the characters so far. -/
def takeUntil (terminator : Char) (missing : Fault) (unterminated : Fault) :
    (fuel : Nat) → (found : List Char) → Cursor → Except Located (List Char × Cursor)
  | 0, found, cursor => .error (cursor.fault unterminated found.length)
  | fuel + 1, found, cursor => do
      let token := cursor.peek
      let next ← cursor.advance
      if token.isEmpty then
        if found.isEmpty then .error (next.fault missing 0)
        else .error (next.fault unterminated found.length)
      else if token = [terminator] then
        if found.isEmpty then .error (next.fault missing 1) else .ok (found, next)
      else takeUntil terminator missing unterminated fuel (found ++ token) next

/-- The name of a group up to its terminator. -/
def takeName (terminator : Char) (cursor : Cursor) : Except Located (List Char × Cursor) :=
  takeUntil terminator .missingGroupName (.unterminatedName terminator)
    (cursor.rest.length + 1) [] cursor

end Cursor

end FormulaEdit.Pattern
