import FormulaEdit.Text.Blank
import FormulaEdit.Text.Digit

/-!
# Integers in decimal notation

An integer may stand between blanks, carry one sign, and have single
underscores between its digits; the digits may come from any script.  There is
a limit to the number of digits, both of an integer that is read and of one
that is written.
-/

namespace FormulaEdit.Numeral

/-- The largest number of digits of an integer that is read or written. -/
def maxDigits : Nat := 4300

/-- The wording for a text with too many digits. -/
def oversizedText (digits : Nat) : String :=
  s!"Exceeds the limit ({maxDigits} digits) for integer string conversion: " ++
    s!"value has {digits} digits; use sys.set_int_max_str_digits() to increase the limit"

/-- The wording for an integer that has too many digits to be written. -/
def unwritableText : String :=
  s!"Exceeds the limit ({maxDigits} digits) for integer string conversion; " ++
    "use sys.set_int_max_str_digits() to increase the limit"

/-- Whether a number of digits goes beyond a limit.  Without a limit, none
does. -/
def exceeds (limit : Option Nat) (digits : Nat) : Bool :=
  limit.any (· < digits)

/-- Whether an integer has no more digits than a limit allows. -/
def fits (limit : Option Nat) (value : Int) : Bool :=
  !exceeds limit (Nat.toDigits 10 value.natAbs).length

/-- Whether a character may stand around an integer: white space, but not the
separators of information units. -/
def isMargin (c : Char) : Bool :=
  Text.isBlank c && !(0x1c ≤ c.toNat && c.toNat ≤ 0x1f)

/-- A text without the margins at its two ends. -/
def trimMargins (text : List Char) : List Char :=
  ((text.dropWhile isMargin).reverse.dropWhile isMargin).reverse

/-- The value of a run of digits that goes on from `value`.  An underscore
must be followed by a digit. -/
def readDigits : (value : Nat) → List Char → Option Nat
  | value, [] => some value
  | value, '_' :: c :: rest =>
      match Text.digitValue? c with
      | some digit => readDigits (10 * value + digit) rest
      | none => none
  | value, c :: rest =>
      match Text.digitValue? c with
      | some digit => readDigits (10 * value + digit) rest
      | none => none

/-- The number of digits in a run of digits and underscores. -/
def digitCount (digits : List Char) : Nat :=
  digits.countP (· ≠ '_')

/-- A non-empty run of digits, not too long. -/
def readNatural : List Char → Option Nat
  | [] => none
  | c :: rest =>
      if maxDigits < digitCount (c :: rest) then none
      else
        match Text.digitValue? c with
        | some digit => readDigits digit rest
        | none => none

/-- Read an integer from a text. -/
def readInteger (text : List Char) : Option Int :=
  match trimMargins text with
  | '+' :: digits => (readNatural digits).map Int.ofNat
  | '-' :: digits => (readNatural digits).map fun value => -(Int.ofNat value)
  | digits => (readNatural digits).map Int.ofNat

end FormulaEdit.Numeral
