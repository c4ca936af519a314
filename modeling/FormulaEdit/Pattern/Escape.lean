import FormulaEdit.Pattern.Basic
import FormulaEdit.Pattern.Cursor
import FormulaEdit.Text.Hex

/-!
# Escapes in patterns

Inside and outside character sets an escape stands for a character, a class of
characters, a place in the text, or a group matched before.  The table of
character names is outside this library, so no character is escaped by name.
-/

namespace FormulaEdit.Pattern

/-- Whether a character is an ASCII digit. -/
def isAsciiDigit (c : Char) : Bool := 48 ≤ c.toNat && c.toNat ≤ 57

/-- Whether a character is an octal digit. -/
def isOctal (c : Char) : Bool := 48 ≤ c.toNat && c.toNat ≤ 55

/-- Whether a character is an ASCII letter. -/
def isAsciiLetter (c : Char) : Bool :=
  (65 ≤ c.toNat && c.toNat ≤ 90) || (97 ≤ c.toNat && c.toNat ≤ 122)

/-- The value of digits in a base of at most sixteen. -/
def valueIn (base : Nat) (digits : List Char) : Nat :=
  digits.foldl (fun value c => base * value + (Text.hexValue? c).getD 0) 0

/-- The character that an escaped letter stands for. -/
def controlEscape? (c : Char) : Option Nat :=
  if c = 'a' then some 7
  else if c = 'b' then some 8
  else if c = 'f' then some 12
  else if c = 'n' then some 10
  else if c = 'r' then some 13
  else if c = 't' then some 9
  else if c = 'v' then some 11
  else if c = '\\' then some 92
  else none

/-- The class that an escaped letter stands for. -/
def categoryEscape? (c : Char) : Option SetItem :=
  if c = 'd' then some (.category .digit false)
  else if c = 'D' then some (.category .digit true)
  else if c = 's' then some (.category .space false)
  else if c = 'S' then some (.category .space true)
  else if c = 'w' then some (.category .word false)
  else if c = 'W' then some (.category .word true)
  else none

/-- The place that an escaped letter stands for. -/
def anchorEscape? (ascii : Bool) (c : Char) : Option Anchor :=
  if c = 'A' then some .textStart
  else if c = 'Z' then some .textEnd
  else if c = 'b' then some (.boundary ascii)
  else if c = 'B' then some (.noBoundary ascii)
  else none

/-- An escape of exactly `count` hexadecimal digits behind a letter. -/
def readHexEscape (letter : Char) (count : Nat) (cursor : Cursor) :
    Except Located (Nat × Cursor) := do
  let (digits, cursor) ← cursor.takeWhile (fun c => (Text.hexValue? c).isSome) count
  let written := '\\' :: letter :: digits
  if digits.length ≠ count then
    .error (cursor.fault (.incompleteEscape (String.ofList written)) written.length)
  else if 0x10ffff < valueIn 16 digits then
    .error (cursor.fault (.escape (String.ofList written)) written.length)
  else .ok (valueIn 16 digits, cursor)

/-- An escape by the name of a character.  Every name counts as unknown. -/
def readNamedEscape (cursor : Cursor) : Except Located (Nat × Cursor) := do
  if cursor.peek ≠ ['\x7b'] then .error (cursor.fault .missingBrace 0)
  else
    let cursor ← cursor.advance
    let (name, cursor) ← Cursor.takeUntil '\x7d' .missingCharacterName .unterminatedCharacterName
      (cursor.rest.length + 1) [] cursor
    .error (cursor.fault (.unknownCharacter (String.ofList name)) (name.length + 4))

/-- The escapes that mean the same inside and outside sets: those with a
hexadecimal number or a name.  The letter has been passed over. -/
def readCodeEscape? (letter : Char) (cursor : Cursor) :
    Option (Except Located (Nat × Cursor)) :=
  if letter = 'x' then some (readHexEscape letter 2 cursor)
  else if letter = 'u' then some (readHexEscape letter 4 cursor)
  else if letter = 'U' then some (readHexEscape letter 8 cursor)
  else if letter = 'N' then some (readNamedEscape cursor)
  else none

/-- An escaped character without a meaning of its own stands for itself; a
letter or digit does not. -/
def plainEscape (c : Char) (cursor : Cursor) : Except Located (Nat × Cursor) :=
  if isAsciiLetter c || isAsciiDigit c then
    .error (cursor.fault (.escape (String.ofList ['\\', c])) 2)
  else .ok (c.toNat, cursor)

/-- An octal escape of at most three digits, whose first one is given. -/
def readOctalEscape (first : Char) (cursor : Cursor) : Except Located (Nat × Cursor) := do
  let (digits, cursor) ← cursor.takeWhile isOctal 2
  let value := valueIn 8 (first :: digits)
  if 0o377 < value then
    let written := '\\' :: first :: digits
    .error (cursor.fault (.octalRange (String.ofList written)) written.length)
  else .ok (value, cursor)

/-- An escape inside a set; the backslash and the character behind it have
been passed over. -/
def readSetEscape (c : Char) (cursor : Cursor) : Except Located (SetItem × Cursor) :=
  match controlEscape? c, categoryEscape? c, readCodeEscape? c cursor with
  | some code, _, _ => .ok (.code code, cursor)
  | none, some item, _ => .ok (item, cursor)
  | none, none, some read => do
      let (code, cursor) ← read
      return (.code code, cursor)
  | none, none, none => do
      let (code, cursor) ←
        if isOctal c then readOctalEscape c cursor else plainEscape c cursor
      return (.code code, cursor)

end FormulaEdit.Pattern
