import FormulaEdit.Pattern.Cursor
import FormulaEdit.Text.Digit
import FormulaEdit.Text.Word

/-!
# Options inside patterns

A pattern may set options for all of itself, at its very start, or for one
group.
-/

namespace FormulaEdit.Pattern

/-- The options that change what a pattern means. -/
structure Flags where
  ignoreCase : Bool := false
  multiLine : Bool := false
  dotAll : Bool := false
  spaced : Bool := false
  ascii : Bool := false
deriving DecidableEq, Repr

/-- The letters that name options. -/
def flagLetters : List Char := ['i', 'L', 'm', 's', 'x', 'a', 't', 'u']

/-- Whether a token is the letter of an option. -/
def isFlag : List Char → Bool
  | [c] => flagLetters.contains c
  | _ => false

/-- Whether an option chooses an alphabet. -/
def isAlphabetFlag (c : Char) : Bool := c = 'a' || c = 'u' || c = 'L'

namespace Flags

/-- Switch one option on or off. -/
def set (flags : Flags) (value : Bool) (letter : Char) : Flags :=
  if letter = 'i' then { flags with ignoreCase := value }
  else if letter = 'm' then { flags with multiLine := value }
  else if letter = 's' then { flags with dotAll := value }
  else if letter = 'x' then { flags with spaced := value }
  else if letter = 'a' then { flags with ascii := value }
  else if letter = 'u' then { flags with ascii := !value }
  else flags

/-- Switch several options on or off. -/
def setAll (flags : Flags) (value : Bool) (letters : List Char) : Flags :=
  letters.foldl (fun flags letter => flags.set value letter) flags

end Flags

/-- Whether a token is a letter of any script. -/
def isLetterToken : List Char → Bool
  | [c] => Text.isWord c && !Text.isDecimal c && c ≠ '_'
  | _ => false

/-- The options named in a pattern: for the whole of it, or for one group. -/
inductive FlagChange where
  | global (on : List Char)
  | local (on off : List Char)

/-- Read the letters of options to be switched on.  `letter` has been passed
over; the result is the token behind the letters. -/
def readFlagsOn : (fuel : Nat) → (on : List Char) → (letter : Char) → Cursor →
    Except Located (List Char × List Char × Cursor)
  | 0, _, _, cursor => .error (cursor.fault .missingFlagEnd 0)
  | fuel + 1, on, letter, cursor =>
      if letter = 'L' then .error (cursor.fault .localeFlag 0)
      else if isAlphabetFlag letter && on.any (fun other => isAlphabetFlag other && other ≠ letter)
      then .error (cursor.fault .mixedFlags 0)
      else do
        let token := cursor.peek
        let next ← cursor.advance
        match token with
        | [] => .error (next.fault .missingFlagEnd 0)
        | [c] =>
            if c = ')' || c = '-' || c = ':' then .ok (on ++ [letter], token, next)
            else if isFlag token then readFlagsOn fuel (on ++ [letter]) c next
            else .error (next.fault
              (if isLetterToken token then .unknownFlag else .missingFlagEnd) 1)
        | _ => .error (next.fault .missingFlagEnd token.length)

/-- Read the letters of options to be switched off, up to a colon. -/
def readFlagsOff : (fuel : Nat) → (off : List Char) → (letter : Char) → Cursor →
    Except Located (List Char × Cursor)
  | 0, _, _, cursor => .error (cursor.fault .missingColon 0)
  | fuel + 1, off, letter, cursor =>
      if isAlphabetFlag letter then .error (cursor.fault .encodingFlagOff 0)
      else do
        let token := cursor.peek
        let next ← cursor.advance
        match token with
        | [] => .error (next.fault .missingColon 0)
        | [c] =>
            if c = ':' then .ok (off ++ [letter], next)
            else if isFlag token then readFlagsOff fuel (off ++ [letter]) c next
            else .error (next.fault
              (if isLetterToken token then .unknownFlag else .missingColon) 1)
        | _ => .error (next.fault .missingColon token.length)

/-- Read the first letter of the options to be switched off and those after it. -/
def readOffPart (cursor : Cursor) : Except Located (List Char × Cursor) := do
  let token := cursor.peek
  let next ← cursor.advance
  match token with
  | [] => .error (next.fault .missingFlag 0)
  | [c] =>
      if isFlag token then readFlagsOff (next.rest.length + 1) [] c next
      else .error (next.fault (if isLetterToken token then .unknownFlag else .missingFlag) 1)
  | _ => .error (next.fault .missingFlag token.length)

/-- Check the options of a group. -/
def localChange (on off : List Char) (cursor : Cursor) : Except Located (FlagChange × Cursor) :=
  if off.contains 't' then .error (cursor.fault .globalFlagOff 1)
  else if on.any off.contains then .error (cursor.fault .flagOnAndOff 1)
  else .ok (.local on off, cursor)

/-- Read the options behind a question mark; `first`, their first token, has
been passed over. -/
def readFlags (first : Char) (cursor : Cursor) : Except Located (FlagChange × Cursor) := do
  if first = '-' then
    let (off, cursor) ← readOffPart cursor
    localChange [] off cursor
  else
    let (on, token, cursor) ← readFlagsOn (cursor.rest.length + 1) [] first cursor
    if token = [')'] then .ok (.global on, cursor)
    else if on.contains 't' then .error (cursor.fault .globalFlagOn 1)
    else if token = ['-'] then
      let (off, cursor) ← readOffPart cursor
      localChange on off cursor
    else localChange on [] cursor

end FormulaEdit.Pattern
