import FormulaEdit.Json.Reader
import FormulaEdit.Json.Writer
import Mathlib.Algebra.Group.Nat.Defs
import Mathlib.Data.List.Basic
import Mathlib.Data.List.TakeDrop

/-!
# Reading strings and integers back

A written string escapes its characters one by one, those beyond the first
plane as two units.  An integer is written with its decimal digits.  Reading
gives both back, whatever stands behind the closing quotation mark, and
whatever cannot continue a number.
-/

namespace FormulaEdit

theorem Text.hexValue?_hexDigit {value : Nat} (small : value < 16) :
    hexValue? (hexDigit value) = some value := by
  have each : ∀ value < 16, hexValue? (hexDigit value) = some value := by
    decide
  exact each value small

theorem Numeral.exceeds_of_le {limit : Option Nat} {fewer digits : Nat}
    (le : fewer ≤ digits) (short : exceeds limit digits = false) :
    exceeds limit fewer = false := by
  cases limit with
  | none => rfl
  | some limit =>
      simp only [exceeds, Option.any_some, decide_eq_false_iff_not] at short ⊢
      omega

namespace Json

/-! ## Strings -/

theorem exists_unit?_eq {unit : Nat} (small : unit < 0x10000) :
    ∃ a b c d, Text.hexDigits 4 unit = [a, b, c, d] ∧
      unit? a b c d = some unit := by
  refine ⟨_, _, _, _, rfl, ?_⟩
  have value : ∀ part, Text.hexValue? (Text.hexDigit (part % 16)) =
      some (part % 16) :=
    fun part => Text.hexValue?_hexDigit (Nat.mod_lt part (by decide))
  simp only [unit?, value, Option.bind_eq_bind, Option.bind_some,
    Option.pure_def, Option.some.injEq]
  omega

theorem length_hexDigits (width value : Nat) :
    (Text.hexDigits width value).length = width := by
  induction width generalizing value with
  | zero => rfl
  | succ width induction =>
      rw [Text.hexDigits, List.length_append, induction]
      rfl

section Escapes

variable (slash rest : List Char) (next : Char)

theorem readEscape_short {letter c : Char}
    (stands : shortEscape? letter = some c) :
    readEscape slash (letter :: rest) = .ok (c, 1) := by
  have notUnit : letter ≠ 'u' := by
    intro same
    rw [same] at stands
    cases stands
  rw [readEscape, stands]
  · intro a b c d e behind same _
    exact notUnit same
  · exact notUnit

theorem readEscape_unit {unit : Nat} (small : unit < 0x10000)
    (single : isHighUnit unit = false) :
    readEscape slash ('u' :: Text.hexDigits 4 unit ++ next :: rest) =
      .ok (unitChar unit, 5) := by
  obtain ⟨a, b, c, d, digits, value⟩ := exists_unit?_eq small
  rw [digits]
  simp [readEscape, value, single]

theorem readEscape_pair {high low : Nat} (highSmall : high < 0x10000)
    (isHigh : isHighUnit high = true) (lowSmall : low < 0x10000)
    (isLow : isLowUnit low = true) :
    readEscape slash ('u' :: Text.hexDigits 4 high ++ unitEscape low ++
      next :: rest) = .ok (pairChar high low, 11) := by
  obtain ⟨a, b, c, d, digits, value⟩ := exists_unit?_eq highSmall
  obtain ⟨a', b', c', d', lowDigits, lowValue⟩ := exists_unit?_eq lowSmall
  rw [unitEscape, digits, lowDigits]
  simp [readEscape, value, isHigh, lowValue, isLow]

end Escapes

theorem unitChar_toNat (c : Char) : unitChar c.toNat = c := by
  have valid : c.toNat < 0xd800 ∨ 0xdfff < c.toNat ∧ c.toNat < 0x110000 :=
    c.valid
  have single : (isHighUnit c.toNat || isLowUnit c.toNat) = false := by
    simp only [isHighUnit, isLowUnit, Bool.or_eq_false_iff,
      Bool.and_eq_false_iff, decide_eq_false_iff_not]
    omega
  rw [unitChar, single, if_neg Bool.false_ne_true, Char.ofNat_toNat]

theorem isHighUnit_toNat (c : Char) : isHighUnit c.toNat = false := by
  have valid : c.toNat < 0xd800 ∨ 0xdfff < c.toNat ∧ c.toNat < 0x110000 :=
    c.valid
  simp only [isHighUnit, Bool.and_eq_false_iff, decide_eq_false_iff_not]
  omega

theorem pairChar_units {c : Char} (astral : 0x10000 ≤ c.toNat) :
    pairChar (0xd800 + (c.toNat - 0x10000) / 0x400)
      (0xdc00 + (c.toNat - 0x10000) % 0x400) = c := by
  have same : 0x10000 + (0xd800 + (c.toNat - 0x10000) / 0x400 - 0xd800) *
      0x400 + (0xdc00 + (c.toNat - 0x10000) % 0x400 - 0xdc00) =
      c.toNat := by
    omega
  rw [pairChar, same, Char.ofNat_toNat]

/-- How a character is written: with a one-letter escape, as it is, as one
unit or as a pair of units. -/
inductive WrittenForm (c : Char) : Prop where
  | short {letter : Char} (written : writtenChar c = ['\\', letter])
      (stands : shortEscape? letter = some c)
  | plain (written : writtenChar c = [c]) (notQuote : c ≠ '"')
      (notSlash : c ≠ '\\') (notControl : ¬c.toNat < 0x20)
  | unit (written : writtenChar c = unitEscape c.toNat)
      (small : c.toNat < 0x10000)
  | pair {high low : Nat}
      (written : writtenChar c = unitEscape high ++ unitEscape low)
      (highSmall : high < 0x10000) (isHigh : isHighUnit high = true)
      (lowSmall : low < 0x10000) (isLow : isLowUnit low = true)
      (stands : pairChar high low = c)

theorem writtenChar_form (c : Char) : WrittenForm c := by
  by_cases special :
      c ∈ ['"', '\\', '\n', '\r', '\t', '\x08', '\x0c']
  · simp only [List.mem_cons, List.not_mem_nil, or_false] at special
    rcases special with rfl | rfl | rfl | rfl | rfl | rfl | rfl
    all_goals exact .short rfl rfl
  · simp only [List.mem_cons, List.not_mem_nil, or_false, not_or] at special
    obtain ⟨notQuote, notSlash, notLine, notReturn, notTab, notBack,
      notFeed⟩ := special
    have written : writtenChar c =
        if 0x20 ≤ c.toNat && c.toNat ≤ 0x7e then [c]
        else if c.toNat < 0x10000 then unitEscape c.toNat
        else unitEscape (0xd800 + (c.toNat - 0x10000) / 0x400) ++
          unitEscape (0xdc00 + (c.toNat - 0x10000) % 0x400) := by
      rw [writtenChar, if_neg notQuote, if_neg notSlash, if_neg notLine,
        if_neg notReturn, if_neg notTab, if_neg notBack, if_neg notFeed]
    split at written
    next printable =>
      simp only [Bool.and_eq_true, decide_eq_true_eq] at printable
      exact .plain written notQuote notSlash (by omega)
    split at written
    next small => exact .unit written small
    next astral =>
      have valid : c.toNat < 0xd800 ∨
          0xdfff < c.toNat ∧ c.toNat < 0x110000 := c.valid
      refine .pair written (by omega) ?_ (by omega) ?_
        (pairChar_units (by omega))
      · simp only [isHighUnit, Bool.and_eq_true, decide_eq_true_eq]
        omega
      · simp only [isLowUnit, Bool.and_eq_true, decide_eq_true_eq]
        omega

section Strings

variable (start before rest : List Char)

theorem readString_skip (passed : List Char) :
    readString start passed.length before (passed ++ rest) =
      readString start 0 before rest := by
  induction passed with
  | nil => rfl
  | cons c passed induction =>
      rw [List.length_cons, List.cons_append, readString, induction]

theorem readString_plain {c : Char} (notQuote : c ≠ '"')
    (notSlash : c ≠ '\\') (notControl : ¬c.toNat < 0x20) :
    readString start 0 before (c :: rest) =
      readString start 0 (c :: before) rest := by
  rw [readString, if_neg notQuote, if_neg notSlash, if_neg notControl]

theorem readString_escape {c : Char} {escape : List Char}
    (nonempty : escape ≠ [])
    (read : readEscape ('\\' :: (escape ++ rest)) (escape ++ rest) =
      .ok (c, escape.length)) :
    readString start 0 before ('\\' :: (escape ++ rest)) =
      readString start 0 (c :: before) rest := by
  have some : (escape ++ rest).isEmpty = false := by
    simp [nonempty]
  rw [readString, if_neg (by decide), if_pos rfl, some,
    if_neg Bool.false_ne_true, read]
  exact readString_skip start (c :: before) rest escape

/-- A written character is read back.  An escape of four digits needs some
character behind it. -/
theorem readString_writtenChar (c next : Char) :
    readString start 0 before (writtenChar c ++ next :: rest) =
      readString start 0 (c :: before) (next :: rest) := by
  cases writtenChar_form c with
  | short written stands =>
      rw [written]
      exact readString_escape start before (next :: rest)
        (List.cons_ne_nil _ []) (readEscape_short _ _ stands)
  | plain written notQuote notSlash notControl =>
      rw [written]
      exact readString_plain start before (next :: rest) notQuote notSlash
        notControl
  | unit written small =>
      have read := readEscape_unit
        ('\\' :: 'u' :: Text.hexDigits 4 c.toNat ++ next :: rest) rest next
        small (isHighUnit_toNat c)
      rw [unitChar_toNat] at read
      rw [written]
      apply readString_escape start before (next :: rest)
        (List.cons_ne_nil 'u' _)
      rw [List.length_cons, length_hexDigits]
      exact read
  | @pair high low written highSmall isHigh lowSmall isLow stands =>
      have read := readEscape_pair ('\\' :: 'u' :: Text.hexDigits 4 high ++
        unitEscape low ++ next :: rest) rest next highSmall isHigh lowSmall
        isLow
      rw [stands] at read
      rw [written]
      apply readString_escape start before (next :: rest)
        (List.cons_ne_nil 'u' (Text.hexDigits 4 high ++ unitEscape low))
      rw [List.length_cons, List.length_append, unitEscape,
        List.length_cons, List.length_cons, length_hexDigits,
        length_hexDigits]
      exact read

theorem readString_written (text : List Char) :
    readString start 0 before (text.flatMap writtenChar ++ '"' :: rest) =
      .ok (String.ofList (before.reverse ++ text), rest) := by
  induction text generalizing before with
  | nil =>
      rw [List.append_nil]
      rfl
  | cons c text induction =>
      rw [List.flatMap_cons, List.append_assoc]
      obtain ⟨next, behind, more⟩ : ∃ next behind,
          text.flatMap writtenChar ++ '"' :: rest = next :: behind :=
        List.exists_cons_of_ne_nil (by simp)
      rw [more, readString_writtenChar, ← more, induction,
        List.reverse_cons, List.append_assoc]
      rfl

end Strings

/-! ## Integers -/

/-- What stands behind a value in a written text: nothing, a comma or a line
end. -/
def Parted (rest : List Char) : Prop :=
  ∀ c ∈ rest.head?, c = ',' ∨ c = '\n'

theorem isDigit_of_mem_toDigits {number : Nat} {c : Char}
    (member : c ∈ Nat.toDigits 10 number) : isDigit c = true := by
  have digit := Nat.isDigit_of_mem_toDigits (by decide) (by decide) member
  simp only [Char.isDigit, Bool.and_eq_true, decide_eq_true_eq] at digit
  simp only [isDigit, Bool.and_eq_true, decide_eq_true_eq]
  exact digit

theorem head?_toDigits_ne_zero {number : Nat} (positive : 0 < number) :
    (Nat.toDigits 10 number).head? ≠ some '0' := by
  induction number using Nat.strongRecOn with
  | ind number induction =>
      rw [Nat.toDigits_eq_if (by decide)]
      split
      next small =>
        have each : ∀ digit < 10, 0 < digit →
            digit.digitChar ≠ '0' := by decide
        simpa using each number small positive
      next large =>
        rw [List.head?_append_of_ne_nil _ Nat.toDigits_ne_nil]
        exact induction (number / 10) (by omega) (by omega)

theorem digitsValue_toDigits (number : Nat) :
    digitsValue 0 (Nat.toDigits 10 number) = number :=
  Nat.ofDigitChars_toDigits (by decide) (by decide)

theorem exists_toDigits (number : Nat) : ∃ c others, isDigit c = true ∧
    Nat.toDigits 10 number = c :: others := by
  obtain ⟨c, others, digits⟩ :=
    List.exists_cons_of_ne_nil (@Nat.toDigits_ne_nil number 10)
  refine ⟨c, others, ?_, digits⟩
  apply @isDigit_of_mem_toDigits number
  rw [digits]
  exact List.mem_cons_self

theorem toList_toString (value : Int) : (toString value).toList =
    if 0 ≤ value then Nat.toDigits 10 value.toNat
    else '-' :: Nat.toDigits 10 (-value).toNat := by
  rw [Int.toString_eq_repr, Int.repr_eq_if]
  split
  · rw [Nat.repr_eq_ofList_toDigits, String.toList_ofList]
  · rw [Nat.repr_eq_ofList_toDigits, String.toList_append]
    exact congrArg ('-' :: ·) String.toList_ofList

theorem exists_toString (value : Int) : ∃ c others, isDigit c = true ∧
    ((toString value).toList = c :: others ∨
      (toString value).toList = '-' :: c :: others) := by
  rw [toList_toString]
  split
  · obtain ⟨c, others, digit, digits⟩ := exists_toDigits value.toNat
    exact ⟨c, others, digit, .inl digits⟩
  · obtain ⟨c, others, digit, digits⟩ := exists_toDigits (-value).toNat
    exact ⟨c, others, digit, .inr (congrArg ('-' :: ·) digits)⟩

theorem ne_of_isDigit {c : Char} (digit : isDigit c = true) (other : Char)
    (noDigit : isDigit other = false) : c ≠ other := by
  intro same
  rw [same, noDigit] at digit
  cases digit

theorem readWhole?_eq_some {text whole rest : List Char}
    (read : readWhole? text = some (whole, rest)) :
    whole ≠ [] ∧ (∀ c ∈ whole, isDigit c = true) ∧ whole ++ rest = text := by
  unfold readWhole? at read
  split at read
  next => cases read
  next =>
    cases read
    exact ⟨List.cons_ne_nil _ _, List.forall_mem_singleton.mpr rfl, rfl⟩
  next c rest _ =>
    split at read
    next digit =>
      rw [spanDigits, List.span_eq_takeWhile_dropWhile] at read
      cases read
      exact ⟨by simp [digit], List.all_eq_true.mp List.all_takeWhile,
        List.takeWhile_append_dropWhile⟩
    next => cases read

theorem digitsValue_lt {digits : List Char} (value : Nat)
    (every : ∀ c ∈ digits, isDigit c = true) :
    digitsValue value digits < (value + 1) * 10 ^ digits.length := by
  induction digits generalizing value with
  | nil => simp [digitsValue]
  | cons c digits induction =>
      obtain ⟨digit, others⟩ := List.forall_mem_cons.mp every
      simp only [isDigit, Bool.and_eq_true, decide_eq_true_eq] at digit
      calc digitsValue value (c :: digits)
          = digitsValue (10 * value + (c.toNat - 48)) digits := rfl
        _ < (10 * value + (c.toNat - 48) + 1) * 10 ^ digits.length :=
            induction _ others
        _ ≤ (10 * (value + 1)) * 10 ^ digits.length :=
            Nat.mul_le_mul_right _ (by omega)
        _ = (value + 1) * 10 ^ (c :: digits).length := by
            rw [List.length_cons, Nat.pow_succ']
            ac_rfl

/-- An integer has no more digits than the text it was read from. -/
theorem fits_digitsValue {limit : Option Nat} {digits : List Char}
    (nonempty : digits ≠ []) (every : ∀ c ∈ digits, isDigit c = true)
    (short : Numeral.exceeds limit digits.length = false) :
    Numeral.fits limit (digitsValue 0 digits) = true := by
  have small := digitsValue_lt 0 every
  rw [Nat.zero_add, Nat.one_mul] at small
  have fewer := (Nat.length_toDigits_le_iff (by decide)
    (List.length_pos_of_ne_nil nonempty)).mpr small
  rw [Numeral.fits, Int.natAbs_natCast, Numeral.exceeds_of_le fewer short]
  rfl

section Scalars

variable {limit : Option Nat} {c : Char} {text : List Char}
  {found : Except Stop (Json × List Char)}

theorem readNumber?_digit (digit : isDigit c = true) :
    readNumber? limit (c :: text) = readMagnitude? limit false (c :: text) := by
  unfold readNumber?
  split
  next same =>
    cases same
    cases digit
  next => rfl

theorem readScalar_digit (digit : isDigit c = true)
    (read : readNumber? limit (c :: text) = some found) :
    readScalar limit (c :: text) = found := by
  -- What else could be read starts with a letter or a sign.
  rw [readScalar, read]
  all_goals
    intro behind same
    cases same
    cases digit

theorem readScalar_sign (digit : isDigit c = true)
    (read : readNumber? limit ('-' :: c :: text) = some found) :
    readScalar limit ('-' :: c :: text) = found := by
  rw [readScalar, read]
  all_goals
    intro behind same
    cases same <;> cases digit

end Scalars

section Numbers

variable {rest : List Char} (parted : Parted rest)
include parted

theorem spanDigits_append {digits : List Char}
    (every : ∀ c ∈ digits, isDigit c = true) :
    spanDigits (digits ++ rest) = (digits, rest) := by
  rw [spanDigits, List.span_eq_takeWhile_dropWhile,
    List.takeWhile_append_of_pos every, List.dropWhile_append_of_pos every]
  cases rest with
  | nil => simp
  | cons c rest =>
      have noDigit : isDigit c = false := by
        rcases parted c rfl with rfl | rfl
        all_goals rfl
      simp [noDigit]

theorem readWhole?_append {digits : List Char} (nonempty : digits ≠ [])
    (every : ∀ c ∈ digits, isDigit c = true)
    (notZero : digits.head? ≠ some '0') :
    readWhole? (digits ++ rest) = some (digits, rest) := by
  have spanned := spanDigits_append parted every
  cases digits with
  | nil => exact absurd rfl nonempty
  | cons c others =>
      have first := every c List.mem_cons_self
      unfold readWhole?
      split
      next same => cases same
      next same =>
        cases same
        exact absurd rfl notZero
      next same =>
        cases same
        rw [if_pos first]
        exact congrArg some spanned

theorem readWhole?_toDigits (number : Nat) :
    readWhole? (Nat.toDigits 10 number ++ rest) =
      some (Nat.toDigits 10 number, rest) := by
  by_cases zero : number = 0
  · subst zero
    rfl
  · exact readWhole?_append parted Nat.toDigits_ne_nil
      (fun c => isDigit_of_mem_toDigits)
      (head?_toDigits_ne_zero (Nat.pos_of_ne_zero zero))

theorem readFraction_parted : readFraction rest = ([], rest) := by
  unfold readFraction
  split
  next rest =>
    rcases parted '.' rfl with same | same
    all_goals cases same
  next => rfl

theorem readExponent_parted : readExponent rest = (none, rest) := by
  unfold readExponent
  split
  next c rest =>
    have notMark : (c = 'e' || c = 'E') = false := by
      rcases parted c rfl with rfl | rfl
      all_goals rfl
    rw [notMark, if_neg Bool.false_ne_true]
  next => rfl

theorem readMagnitude?_of_whole {limit : Option Nat} (negative : Bool)
    {digits : List Char}
    (whole : readWhole? (digits ++ rest) = some (digits, rest)) :
    readMagnitude? limit negative (digits ++ rest) =
      some ((numberOf limit negative digits [] none).map (·, rest)) := by
  simp only [readMagnitude?, whole, Option.map_some,
    readFraction_parted parted, readExponent_parted parted]

theorem readMagnitude?_toDigits {limit : Option Nat} (negative : Bool)
    {number : Nat} (fits : Numeral.fits limit number = true) :
    readMagnitude? limit negative (Nat.toDigits 10 number ++ rest) =
      some (.ok (.int (if negative then -number else number), rest)) := by
  have short : Numeral.exceeds limit (Nat.toDigits 10 number).length = false := by
    simpa [Numeral.fits] using fits
  rw [readMagnitude?_of_whole parted negative (readWhole?_toDigits parted number)]
  simp only [numberOf, short, Bool.false_eq_true, if_false,
    digitsValue_toDigits]
  rfl

theorem readNumber?_toString {limit : Option Nat} {value : Int}
    (fits : Numeral.fits limit value = true) :
    readNumber? limit ((toString value).toList ++ rest) =
      some (.ok (.int value, rest)) := by
  rw [toList_toString]
  split
  next natural =>
    obtain ⟨number, rfl⟩ := Int.eq_ofNat_of_zero_le natural
    have read := readMagnitude?_toDigits parted false fits
    obtain ⟨c, others, digit, digits⟩ := exists_toDigits number
    rw [Int.toNat_natCast]
    rw [digits, List.cons_append] at read ⊢
    rw [readNumber?_digit digit, read, if_neg Bool.false_ne_true]
  next negative =>
    have same : -((-value).toNat : Int) = value := by omega
    rw [← same, Numeral.fits, Int.natAbs_neg] at fits
    have read := readMagnitude?_toDigits parted true fits
    rw [List.cons_append, readNumber?, read, if_pos rfl, same]

theorem readScalar_toString {limit : Option Nat} {value : Int}
    (fits : Numeral.fits limit value = true) :
    readScalar limit ((toString value).toList ++ rest) =
      .ok (.int value, rest) := by
  have number := readNumber?_toString parted fits
  obtain ⟨c, others, digit, starts | starts⟩ := exists_toString value
  · rw [starts] at number ⊢
    exact readScalar_digit digit number
  · rw [starts] at number ⊢
    exact readScalar_sign digit number

end Numbers

end Json

end FormulaEdit
