import FormulaEdit.Json.Basic
import FormulaEdit.Numeral.Integer
import FormulaEdit.Text.Hex

/-!
# Reading JSON

The reader goes through the text once.  The first fault ends it; a fault is
placed by the text that was left when it was met.  There may be a limit to the
digits of a whole number: one beyond it ends the reader too, but is no fault of
the text and has no place.  Values may be nested to any depth, as no bound on
recursion is modelled.
-/

namespace FormulaEdit.Json

/-- What can be wrong with a JSON text. -/
inductive Fault where
  | byteOrderMark
  | expectedValue
  | expectedName
  | expectedColon
  | expectedComma
  | extraData
  | unterminatedString
  | controlCharacter
  | badEscape
  | badUnicodeEscape
deriving DecidableEq, Repr

/-- The wording of a fault. -/
def Fault.message : Fault → String
  | .byteOrderMark => "Unexpected UTF-8 BOM (decode using utf-8-sig)"
  | .expectedValue => "Expecting value"
  | .expectedName => "Expecting property name enclosed in double quotes"
  | .expectedColon => "Expecting ':' delimiter"
  | .expectedComma => "Expecting ',' delimiter"
  | .extraData => "Extra data"
  | .unterminatedString => "Unterminated string starting at"
  | .controlCharacter => "Invalid control character at"
  | .badEscape => "Invalid \\escape"
  | .badUnicodeEscape => "Invalid \\uXXXX escape"

/-- What ends the reader early: a fault together with the text from its place
onwards, or a whole number with too many digits. -/
inductive Stop where
  | fault (fault : Fault) (remaining : List Char)
  | oversized (digits : Nat)
deriving DecidableEq, Repr

/-- White space between the parts of a JSON text. -/
def isSpace (c : Char) : Bool :=
  c = ' ' || c = '\t' || c = '\n' || c = '\r'

/-- The text behind leading white space. -/
def skipSpace (text : List Char) : List Char :=
  text.dropWhile isSpace

/-- The character that a one-letter escape stands for. -/
def shortEscape? (c : Char) : Option Char :=
  if c = '"' || c = '\\' || c = '/' then some c
  else if c = 'b' then some '\x08'
  else if c = 'f' then some '\x0c'
  else if c = 'n' then some '\n'
  else if c = 'r' then some '\r'
  else if c = 't' then some '\t'
  else none

/-- The number that four hexadecimal digits stand for. -/
def unit? (a b c d : Char) : Option Nat := do
  let a ← Text.hexValue? a
  let b ← Text.hexValue? b
  let c ← Text.hexValue? c
  let d ← Text.hexValue? d
  return ((a * 16 + b) * 16 + c) * 16 + d

/-- Whether a UTF-16 unit opens a pair. -/
def isHighUnit (unit : Nat) : Bool := 0xd800 ≤ unit && unit ≤ 0xdbff

/-- Whether a UTF-16 unit closes a pair. -/
def isLowUnit (unit : Nat) : Bool := 0xdc00 ≤ unit && unit ≤ 0xdfff

/-- The character of a single UTF-16 unit; half of a pair has none of its own
and becomes the replacement character. -/
def unitChar (unit : Nat) : Char :=
  if isHighUnit unit || isLowUnit unit then Char.ofNat 0xfffd else Char.ofNat unit

/-- The character of a pair of UTF-16 units. -/
def pairChar (high low : Nat) : Char :=
  Char.ofNat (0x10000 + (high - 0xd800) * 0x400 + (low - 0xdc00))

/-- The character that an escape stands for, and how many characters it has
behind its backslash.  A four-digit escape is only complete when some
character follows it; the two halves of a pair are joined. -/
def readEscape (slash : List Char) : List Char → Except Stop (Char × Nat)
  | 'u' :: a :: b :: c :: d :: e :: rest =>
      match unit? a b c d with
      | none => .error (.fault .badUnicodeEscape (slash.drop 1))
      | some unit =>
          if isHighUnit unit then
            match e, rest with
            | '\\', 'u' :: a' :: b' :: c' :: d' :: _ :: _ =>
                match unit? a' b' c' d' with
                | none => .error (.fault .badUnicodeEscape rest)
                | some low =>
                    if isLowUnit low then .ok (pairChar unit low, 11)
                    else .ok (unitChar unit, 5)
            | _, _ => .ok (unitChar unit, 5)
          else .ok (unitChar unit, 5)
  | 'u' :: _ => .error (.fault .badUnicodeEscape (slash.drop 1))
  | c :: _ =>
      match shortEscape? c with
      | some char => .ok (char, 1)
      | none => .error (.fault .badEscape slash)
  | [] => .error (.fault .badEscape slash)

/-- Read the rest of a string whose opening quotation mark starts `start`.
`before` holds the characters read so far, the last one first; `skip` counts
the characters of an escape that are still to be passed over. -/
def readString (start : List Char) :
    (skip : Nat) → (before : List Char) → List Char → Except Stop (String × List Char)
  | _, _, [] => .error (.fault .unterminatedString start)
  | skip + 1, before, _ :: rest => readString start skip before rest
  | 0, before, c :: rest =>
      if c = '"' then .ok (String.ofList before.reverse, rest)
      else if c = '\\' then
        if rest.isEmpty then .error (.fault .unterminatedString start)
        else
          match readEscape (c :: rest) rest with
          | .ok (char, length) => readString start length (char :: before) rest
          | .error stop => .error stop
      else if c.toNat < 0x20 then .error (.fault .controlCharacter (c :: rest))
      else readString start 0 (c :: before) rest

/-- Whether a character is an ASCII digit. -/
def isDigit (c : Char) : Bool := 48 ≤ c.toNat && c.toNat ≤ 57

/-- The number that a run of ASCII digits goes on to from `value`. -/
def digitsValue (value : Nat) (digits : List Char) : Nat :=
  digits.foldl (fun value c => 10 * value + (c.toNat - 48)) value

/-- The leading digits of a text and what follows them. -/
def spanDigits (text : List Char) : List Char × List Char :=
  text.span isDigit

/-- The whole part of a number: a lone zero or digits that start with none. -/
def readWhole? : List Char → Option (List Char × List Char)
  | [] => none
  | '0' :: rest => some (['0'], rest)
  | c :: rest => if isDigit c then some (spanDigits (c :: rest)) else none

/-- The digits behind a point, if a point with digits comes first. -/
def readFraction (text : List Char) : List Char × List Char :=
  match text with
  | '.' :: rest =>
      match spanDigits rest with
      | ([], _) => ([], text)
      | found => found
  | _ => ([], text)

/-- The sign of an exponent, if one comes first. -/
def readExponentSign : List Char → Bool × List Char
  | '-' :: rest => (true, rest)
  | '+' :: rest => (false, rest)
  | rest => (false, rest)

/-- The exponent, if a complete one comes first. -/
def readExponent (text : List Char) : Option Int × List Char :=
  match text with
  | c :: rest =>
      if c = 'e' || c = 'E' then
        let (negative, digits) := readExponentSign rest
        match spanDigits digits with
        | ([], _) => (none, text)
        | (found, after) =>
            let value : Int := digitsValue 0 found
            (some (if negative then -value else value), after)
      else (none, text)
  | [] => (none, text)

/-- The number of its parts: an integer when there is neither point nor
exponent.  Only an integer can have too many digits. -/
def numberOf (limit : Option Nat) (negative : Bool) (whole fraction : List Char)
    (exponent : Option Int) : Except Stop Json :=
  match fraction, exponent with
  | [], none =>
      if Numeral.exceeds limit whole.length then .error (.oversized whole.length)
      else
        let value : Int := digitsValue 0 whole
        .ok (.int (if negative then -value else value))
  | _, _ =>
      .ok (.float (.ofDecimal negative (digitsValue 0 (whole ++ fraction))
        (exponent.getD 0 - fraction.length)))

/-- Read a number without its sign, if there is one. -/
def readMagnitude? (limit : Option Nat) (negative : Bool) (text : List Char) :
    Option (Except Stop (Json × List Char)) :=
  (readWhole? text).map fun (whole, rest) =>
    let (fraction, rest) := readFraction rest
    let (exponent, rest) := readExponent rest
    (numberOf limit negative whole fraction exponent).map fun number => (number, rest)

/-- Read a number, if there is one. -/
def readNumber? (limit : Option Nat) : List Char → Option (Except Stop (Json × List Char))
  | '-' :: rest => readMagnitude? limit true rest
  | text => readMagnitude? limit false text

/-- Read a value that is neither a string nor a container. -/
def readScalar (limit : Option Nat) (text : List Char) : Except Stop (Json × List Char) :=
  match text with
  | 'n' :: 'u' :: 'l' :: 'l' :: rest => .ok (.null, rest)
  | 't' :: 'r' :: 'u' :: 'e' :: rest => .ok (.bool true, rest)
  | 'f' :: 'a' :: 'l' :: 's' :: 'e' :: rest => .ok (.bool false, rest)
  | 'N' :: 'a' :: 'N' :: rest => .ok (.float .undefined, rest)
  | 'I' :: 'n' :: 'f' :: 'i' :: 'n' :: 'i' :: 't' :: 'y' :: rest =>
      .ok (.float (.infinite false), rest)
  | '-' :: 'I' :: 'n' :: 'f' :: 'i' :: 'n' :: 'i' :: 't' :: 'y' :: rest =>
      .ok (.float (.infinite true), rest)
  | text =>
      match readNumber? limit text with
      | some found => found
      | none => .error (.fault .expectedValue text)

mutual

/-- Read one value; no white space stands in front of it.  The fuel bounds
the number of nested and neighbouring values. -/
def readValue (limit : Option Nat) : (fuel : Nat) → List Char → Except Stop (Json × List Char)
  | 0, text => .error (.fault .expectedValue text)
  | _ + 1, '"' :: rest => do
      let (text, rest) ← readString ('"' :: rest) 0 [] rest
      return (.str text, rest)
  | fuel + 1, '[' :: rest =>
      match skipSpace rest with
      | ']' :: rest => .ok (.arr [], rest)
      | rest => do
          let (items, rest) ← readItems limit fuel rest
          return (.arr items, rest)
  | fuel + 1, '\x7b' :: rest =>
      match skipSpace rest with
      | '\x7d' :: rest => .ok (.obj [], rest)
      | rest => do
          let (members, rest) ← readMembers limit fuel [] rest
          return (.obj members, rest)
  | _ + 1, text => readScalar limit text

/-- Read the items of an array up to its closing bracket. -/
def readItems (limit : Option Nat) : (fuel : Nat) → List Char → Except Stop (List Json × List Char)
  | 0, text => .error (.fault .expectedValue text)
  | fuel + 1, text => do
      let (item, rest) ← readValue limit fuel text
      match skipSpace rest with
      | ']' :: rest => return ([item], rest)
      | ',' :: rest =>
          let (items, rest) ← readItems limit fuel (skipSpace rest)
          return (item :: items, rest)
      | rest => .error (.fault .expectedComma rest)

/-- Read the members of an object up to its closing brace, adding them to
those before. -/
def readMembers (limit : Option Nat) :
    (fuel : Nat) → Members → List Char → Except Stop (Members × List Char)
  | 0, _, text => .error (.fault .expectedName text)
  | fuel + 1, before, '"' :: rest => do
      let (key, rest) ← readString ('"' :: rest) 0 [] rest
      match skipSpace rest with
      | ':' :: rest =>
          let (value, rest) ← readValue limit fuel (skipSpace rest)
          let members := before.put key value
          match skipSpace rest with
          | '\x7d' :: rest => return (members, rest)
          | ',' :: rest => readMembers limit fuel members (skipSpace rest)
          | rest => .error (.fault .expectedComma rest)
      | rest => .error (.fault .expectedColon rest)
  | _ + 1, _, text => .error (.fault .expectedName text)

end

/-- Read a text that holds one value and white space around it. -/
def readChars (limit : Option Nat) (text : List Char) : Except Stop Json :=
  match text with
  | '\ufeff' :: _ => .error (.fault .byteOrderMark text)
  | _ => do
      let (value, rest) ← readValue limit (text.length + 1) (skipSpace text)
      match skipSpace rest with
      | [] => return value
      | rest => .error (.fault .extraData rest)

/-- A fault with its place in the text. -/
structure ReadError where
  fault : Fault
  line : Nat
  column : Nat
  index : Nat
deriving DecidableEq, Repr

/-- The number of characters behind the last line end. -/
def columnIn (text : List Char) : Nat :=
  (text.reverse.takeWhile (· ≠ '\n')).length

/-- The place of a fault in the whole text, lines and columns counted from
one. -/
def Fault.locate (fault : Fault) (text remaining : List Char) : ReadError :=
  let index := text.length - remaining.length
  let before := text.take index
  { fault := fault
    line := before.count '\n' + 1
    column := columnIn before + 1
    index := index }

/-- The wording of a fault and its place. -/
def ReadError.message (error : ReadError) : String :=
  s!"{error.fault.message}: line {error.line} column {error.column} (char {error.index})"

/-- Why no value was read: a text that is no JSON, or a whole number with too
many digits. -/
inductive Refusal where
  | malformed (error : ReadError)
  | oversized (digits : Nat)
deriving DecidableEq, Repr

/-- The refusal of a text at a stop. -/
def Stop.refusal (text : List Char) : Stop → Refusal
  | .fault cause remaining => .malformed (cause.locate text remaining)
  | .oversized digits => .oversized digits

/-- Read a JSON text, with a limit to the digits of whole numbers or without
one. -/
def read (limit : Option Nat) (text : String) : Except Refusal Json :=
  (readChars limit text.toList).mapError (·.refusal text.toList)

end FormulaEdit.Json
