import FormulaEdit.Numeral.Integer
import FormulaEdit.Text.Quoted

/-!
# Faults of patterns and templates

What can be wrong with a pattern or with the template of a replacement, and
where.  The wording names the line and column too when the text has lines.
-/

namespace FormulaEdit.Pattern

/-- What is wrong. -/
inductive Fault where
  | endOfPattern
  | escape (text : String)
  | incompleteEscape (text : String)
  | octalRange (text : String)
  | missingBrace
  | missingCharacterName
  | unterminatedCharacterName
  | unknownCharacter (name : String)
  | openGroup
  | lookBehindGroup
  | groupReference (index : Nat)
  | unterminatedSet
  | setRange (low high : String)
  | nothingToRepeat
  | multipleRepeat
  | repeatOrder
  | unexpectedEnd
  | missingGroupName
  | unterminatedName (terminator : Char)
  | groupName (name : String)
  | groupNumber
  | unknownGroup (name : String)
  | redefinedGroup (name : String) (index before : Nat)
  | unknownExtension (text : String)
  | unterminatedGroup
  | unterminatedComment
  | unbalanced
  | conditionalBranches
  | lateFlags
  | localeFlag
  | mixedFlags
  | globalFlagOn
  | globalFlagOff
  | encodingFlagOff
  | flagOnAndOff
  | unknownFlag
  | missingFlag
  | missingFlagEnd
  | missingColon
  | missingAngle
deriving DecidableEq, Repr

/-- The wording of a fault. -/
def Fault.message : Fault → String
  | .endOfPattern => "bad escape (end of pattern)"
  | .escape text => s!"bad escape {text}"
  | .incompleteEscape text => s!"incomplete escape {text}"
  | .octalRange text => s!"octal escape value {text} outside of range 0-0o377"
  | .missingBrace => "missing \x7b"
  | .missingCharacterName => "missing character name"
  | .unterminatedCharacterName => "missing \x7d, unterminated name"
  | .unknownCharacter name => s!"undefined character name {Text.quoted name}"
  | .openGroup => "cannot refer to an open group"
  | .lookBehindGroup => "cannot refer to group defined in the same lookbehind subpattern"
  | .groupReference index => s!"invalid group reference {index}"
  | .unterminatedSet => "unterminated character set"
  | .setRange low high => s!"bad character range {low}-{high}"
  | .nothingToRepeat => "nothing to repeat"
  | .multipleRepeat => "multiple repeat"
  | .repeatOrder => "min repeat greater than max repeat"
  | .unexpectedEnd => "unexpected end of pattern"
  | .missingGroupName => "missing group name"
  | .unterminatedName terminator => s!"missing {terminator}, unterminated name"
  | .groupName name => s!"bad character in group name {Text.quoted name}"
  | .groupNumber => "bad group number"
  | .unknownGroup name => s!"unknown group name {Text.quoted name}"
  | .redefinedGroup name index before =>
      s!"redefinition of group name {Text.quoted name} as group {index}; was group {before}"
  | .unknownExtension text => s!"unknown extension ?{text}"
  | .unterminatedGroup => "missing ), unterminated subpattern"
  | .unterminatedComment => "missing ), unterminated comment"
  | .unbalanced => "unbalanced parenthesis"
  | .conditionalBranches => "conditional backref with more than two branches"
  | .lateFlags => "global flags not at the start of the expression"
  | .localeFlag => "bad inline flags: cannot use 'L' flag with a str pattern"
  | .mixedFlags => "bad inline flags: flags 'a', 'u' and 'L' are incompatible"
  | .globalFlagOn => "bad inline flags: cannot turn on global flag"
  | .globalFlagOff => "bad inline flags: cannot turn off global flag"
  | .encodingFlagOff => "bad inline flags: cannot turn off flags 'a', 'u' and 'L'"
  | .flagOnAndOff => "bad inline flags: flag turned on and off"
  | .unknownFlag => "unknown flag"
  | .missingFlag => "missing flag"
  | .missingFlagEnd => "missing -, : or )"
  | .missingColon => "missing :"
  | .missingAngle => "missing <"

/-- A fault with its place in a text. -/
structure Located where
  fault : Fault
  position : Nat
deriving DecidableEq, Repr

/-- The line and column of a place, if the text has more than one line. -/
def lineNote (text : List Char) (position : Nat) : String :=
  if text.contains '\n' then
    let before := text.take position
    let line := before.count '\n' + 1
    let column := (before.reverse.takeWhile (· ≠ '\n')).length + 1
    s!" (line {line}, column {column})"
  else ""

/-- The wording of a fault and its place in a text. -/
def Located.message (located : Located) (text : List Char) : String :=
  s!"{located.fault.message} at position {located.position}" ++ lineNote text located.position

/-- Why a text is no pattern. -/
inductive SyntaxError where
  | at (located : Located)
  | looseLookBehind
  | repetitionTooLarge
  | oversized (digits : Nat)
deriving DecidableEq, Repr

/-- The wording of a fault of a pattern. -/
def SyntaxError.message (text : List Char) : SyntaxError → String
  | .at located => located.message text
  | .looseLookBehind => "look-behind requires fixed-width pattern"
  | .repetitionTooLarge => "the repetition number is too large"
  | .oversized digits => Numeral.oversizedText digits

end FormulaEdit.Pattern
