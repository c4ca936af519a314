import FormulaEdit.Proofs.Json.Stored

/-!
# The limit to the digits of whole numbers

A reader with a limit goes through a text as the one without does.  Either both
end in the same way, or the first one stops at a run of digits that is longer
than the limit allows.  The two readers are compared step by step.
-/

namespace FormulaEdit.Json

/-- A text has a run of so many digits. -/
def HasRun (text : List Char) (digits : Nat) : Prop :=
  ∃ run, run.length = digits ∧ (∀ c ∈ run, isDigit c = true) ∧ run <:+: text

/-- How a reader with a limit ends on a text, compared with the one without: it
gives the same value and leaves the same end of the text, it meets the same
fault, or it stops at a run of digits beyond the limit. -/
inductive Follows {α : Type} (limit : Option Nat) (text : List Char) :
    Except Stop (α × List Char) → Except Stop (α × List Char) → Prop where
  | found (value : α) {rest : List Char} (left : rest <:+ text) :
      Follows limit text (.ok (value, rest)) (.ok (value, rest))
  | fault (cause : Fault) (remaining : List Char) :
      Follows limit text (.error (.fault cause remaining))
        (.error (.fault cause remaining))
  | oversized {digits : Nat} (long : Numeral.exceeds limit digits = true)
      (run : HasRun text digits)
      (unlimited : Except Stop (α × List Char)) :
      Follows limit text (.error (.oversized digits)) unlimited

namespace Follows

variable {α β : Type} {limit : Option Nat} {text rest : List Char}

theorem of_suffix {first first' : Except Stop (α × List Char)}
    (follows : Follows limit rest first first') (left : rest <:+ text) :
    Follows limit text first first' := by
  cases follows with
  | found value further => exact .found value (further.trans left)
  | fault cause remaining => exact .fault cause remaining
  | oversized long run =>
      obtain ⟨digits, length, every, inside⟩ := run
      exact .oversized long
        ⟨digits, length, every, inside.trans left.isInfix⟩ _

/-- Two readers that are compared may go on with the same end of the text. -/
theorem bind {first first' : Except Stop (α × List Char)}
    {next next' : α × List Char → Except Stop (β × List Char)}
    (follows : Follows limit text first first')
    (goOn : ∀ value rest,
      Follows limit rest (next (value, rest)) (next' (value, rest))) :
    Follows limit text (first >>= next) (first' >>= next') := by
  cases follows with
  | found value left => exact (goOn value _).of_suffix left
  | fault cause remaining => exact .fault cause remaining
  | oversized long run => exact .oversized long run _

end Follows

variable {limit : Option Nat}

/-! ## Strings -/

theorem readEscape_eq_error {slash text : List Char} {stop : Stop}
    (failed : readEscape slash text = .error stop) :
    ∃ cause remaining, stop = .fault cause remaining := by
  unfold readEscape at failed
  grind

theorem follows_readString (start : List Char) (skip : Nat)
    (before text : List Char) :
    Follows limit text (readString start skip before text)
      (readString start skip before text) := by
  fun_induction readString start skip before text with
  | case1 => exact .fault _ _
  | case2 before skip c rest induction =>
      exact induction.of_suffix (List.suffix_cons c rest)
  | case3 before rest => exact .found _ (List.suffix_cons _ rest)
  | case4 => exact .fault _ _
  | case5 before rest _ _ char length _ induction =>
      exact induction.of_suffix (List.suffix_cons _ rest)
  | case6 before rest _ _ stop failed =>
      obtain ⟨cause, remaining, rfl⟩ := readEscape_eq_error failed
      exact .fault cause remaining
  | case7 => exact .fault _ _
  | case8 before c rest _ _ _ induction =>
      exact induction.of_suffix (List.suffix_cons c rest)

/-! ## Numbers -/

theorem spanDigits_suffix (text : List Char) :
    (spanDigits text).2 <:+ text := by
  rw [spanDigits, List.span_eq_takeWhile_dropWhile]
  exact List.dropWhile_suffix _

theorem readFraction_suffix (text : List Char) :
    (readFraction text).2 <:+ text := by
  unfold readFraction
  split
  next rest =>
    split
    next => exact List.suffix_rfl
    next => exact (spanDigits_suffix rest).trans (List.suffix_cons _ rest)
  next => exact List.suffix_rfl

theorem readExponentSign_suffix (text : List Char) :
    (readExponentSign text).2 <:+ text := by
  unfold readExponentSign
  split
  next rest => exact List.suffix_cons _ rest
  next rest => exact List.suffix_cons _ rest
  next => exact List.suffix_rfl

theorem readExponent_suffix (text : List Char) :
    (readExponent text).2 <:+ text := by
  unfold readExponent
  split
  next c rest =>
    split
    next =>
      have digits := (spanDigits_suffix _).trans (readExponentSign_suffix rest)
      dsimp only
      split
      next => exact List.suffix_rfl
      next spanned =>
        rw [spanned] at digits
        exact digits.trans (List.suffix_cons c rest)
    next => exact List.suffix_rfl
  next => exact List.suffix_rfl

theorem follows_numberOf {whole rest text : List Char} (negative : Bool)
    (fraction : List Char) (exponent : Option Int) (run : HasRun text whole.length)
    (left : rest <:+ text) :
    Follows limit text
      ((numberOf limit negative whole fraction exponent).map (·, rest))
      ((numberOf none negative whole fraction exponent).map (·, rest)) := by
  unfold numberOf
  split
  next =>
    split
    next long => exact .oversized long run _
    next => exact .found _ left
  next => exact .found _ left

theorem follows_readMagnitude? (negative : Bool) (text : List Char) :
    Option.Rel (Follows limit text) (readMagnitude? limit negative text)
      (readMagnitude? none negative text) := by
  unfold readMagnitude?
  cases read : readWhole? text with
  | none => exact .none
  | some found =>
      obtain ⟨whole, behind⟩ := found
      obtain ⟨_, every, rfl⟩ := readWhole?_eq_some read
      refine .some (follows_numberOf negative _ _ ?_ ?_)
      · exact ⟨whole, rfl, every, (List.prefix_append whole behind).isInfix⟩
      · exact ((readExponent_suffix _).trans (readFraction_suffix behind)).trans
          (List.suffix_append whole behind)

theorem follows_readNumber? (text : List Char) :
    Option.Rel (Follows limit text) (readNumber? limit text)
      (readNumber? none text) := by
  unfold readNumber?
  split
  next rest =>
    have magnitude := @follows_readMagnitude? limit true rest
    generalize readMagnitude? limit true rest = limited at magnitude ⊢
    generalize readMagnitude? none true rest = unlimited at magnitude ⊢
    cases magnitude with
    | none => exact .none
    | some follows => exact .some (follows.of_suffix (List.suffix_cons '-' rest))
  next => exact follows_readMagnitude? false text

theorem follows_readScalar (text : List Char) :
    Follows limit text (readScalar limit text) (readScalar none text) := by
  have number := @follows_readNumber? limit text
  unfold readScalar
  split
  case h_7 =>
    generalize readNumber? limit text = limited at number ⊢
    generalize readNumber? none text = unlimited at number ⊢
    cases number with
    | none => exact .fault _ _
    | some follows => exact follows
  all_goals exact .found _ (by simp [List.suffix_cons_iff])

/-! ## Containers -/

theorem skipSpace_suffix (text : List Char) : skipSpace text <:+ text :=
  List.dropWhile_suffix _

theorem skipSpace_suffix_cons (c : Char) (text : List Char) :
    skipSpace text <:+ c :: text :=
  (skipSpace_suffix text).trans (List.suffix_cons c text)

/-- The readers of values, items and members with a limit follow those without
one. -/
structure ReadersFollow (limit : Option Nat) (fuel : Nat) : Prop where
  value : ∀ text,
    Follows limit text (readValue limit fuel text) (readValue none fuel text)
  items : ∀ text,
    Follows limit text (readItems limit fuel text) (readItems none fuel text)
  members : ∀ before text,
    Follows limit text (readMembers limit fuel before text)
      (readMembers none fuel before text)

section Step

variable {fuel : Nat} (readers : ReadersFollow limit fuel)
include readers

theorem follows_readValue (text : List Char) :
    Follows limit text (readValue limit (fuel + 1) text)
      (readValue none (fuel + 1) text) := by
  unfold readValue
  split
  next zero => cases zero
  next rest _ =>
    refine Follows.bind ?_ fun value rest => .found _ List.suffix_rfl
    exact (follows_readString _ 0 [] rest).of_suffix (List.suffix_cons _ rest)
  next rest same =>
    cases same
    refine Follows.of_suffix ?_ (skipSpace_suffix_cons _ rest)
    split
    next behind found =>
      rw [found]
      exact .found _ (List.suffix_cons _ behind)
    next =>
      exact (readers.items _).bind fun items rest => .found _ List.suffix_rfl
  next rest same =>
    cases same
    refine Follows.of_suffix ?_ (skipSpace_suffix_cons _ rest)
    split
    next behind found =>
      rw [found]
      exact .found _ (List.suffix_cons _ behind)
    next =>
      exact (readers.members [] _).bind fun members rest =>
        .found _ List.suffix_rfl
  next => exact follows_readScalar _

theorem follows_readItems (text : List Char) :
    Follows limit text (readItems limit (fuel + 1) text)
      (readItems none (fuel + 1) text) := by
  unfold readItems
  refine (readers.value text).bind fun item behind => ?_
  refine Follows.of_suffix ?_ (skipSpace_suffix behind)
  dsimp only
  split
  next rest found =>
    rw [found]
    exact .found _ (List.suffix_cons _ rest)
  next rest found =>
    rw [found]
    refine Follows.of_suffix ?_ (skipSpace_suffix_cons _ rest)
    exact (readers.items _).bind fun items rest => .found _ List.suffix_rfl
  next => exact .fault _ _

theorem follows_readMembers (before : Members) (text : List Char) :
    Follows limit text (readMembers limit (fuel + 1) before text)
      (readMembers none (fuel + 1) before text) := by
  unfold readMembers
  split
  next zero => cases zero
  next before rest same =>
    cases same
    have key := (@follows_readString limit ('"' :: rest) 0 [] rest).of_suffix
      (List.suffix_cons '"' rest)
    refine key.bind fun key behind => ?_
    refine Follows.of_suffix ?_ (skipSpace_suffix behind)
    dsimp only
    split
    next rest found =>
      rw [found]
      refine Follows.of_suffix ?_ (skipSpace_suffix_cons _ rest)
      refine (readers.value _).bind fun value behind => ?_
      refine Follows.of_suffix ?_ (skipSpace_suffix behind)
      dsimp only
      split
      next rest found =>
        rw [found]
        exact .found _ (List.suffix_cons _ rest)
      next rest found =>
        rw [found]
        exact (readers.members _ _).of_suffix (skipSpace_suffix_cons _ rest)
      next => exact .fault _ _
    next => exact .fault _ _
  next => exact .fault _ _

end Step

theorem readersFollow (limit : Option Nat) (fuel : Nat) :
    ReadersFollow limit fuel := by
  induction fuel with
  | zero =>
      constructor
      · intro text
        exact .fault _ _
      · intro text
        exact .fault _ _
      · intro before text
        exact .fault _ _
  | succ fuel induction =>
      exact ⟨follows_readValue induction, follows_readItems induction,
        follows_readMembers induction⟩

/-! ## Whole texts -/

theorem readChars_cases (limit : Option Nat) (text : List Char) :
    (readChars limit text = readChars none text ∧
      ∀ digits, readChars limit text ≠ .error (.oversized digits)) ∨
    ∃ digits, readChars limit text = .error (.oversized digits) ∧
      Numeral.exceeds limit digits = true ∧ HasRun text digits := by
  unfold readChars
  split
  next => exact .inl ⟨rfl, by simp⟩
  next =>
    have value := (readersFollow limit (text.length + 1)).value (skipSpace text)
    generalize readValue limit (text.length + 1) (skipSpace text) = limited
      at value ⊢
    generalize readValue none (text.length + 1) (skipSpace text) = unlimited
      at value ⊢
    cases value with
    | found value left =>
        refine .inl ⟨rfl, ?_⟩
        intro digits failed
        dsimp only [bind, Except.bind] at failed
        split at failed
        · cases failed
        · cases failed
    | fault cause remaining =>
        refine .inl ⟨rfl, ?_⟩
        intro digits failed
        cases failed
    | oversized long run =>
        obtain ⟨digits, length, every, inside⟩ := run
        exact .inr ⟨_, rfl, long, digits, length, every,
          inside.trans (skipSpace_suffix text).isInfix⟩

/-- A text is read with a limit as without one, or the reader stops at a run of
digits that is longer than the limit allows. -/
theorem read_cases (limit : Option Nat) (text : String) :
    (Json.read limit text = Json.read none text ∧
      ∀ digits, Json.read limit text ≠ .error (.oversized digits)) ∨
    ∃ digits, Json.read limit text = .error (.oversized digits) ∧
      Numeral.exceeds limit digits = true ∧ HasRun text.toList digits := by
  unfold Json.read
  rcases readChars_cases limit text.toList with
    ⟨same, never⟩ | ⟨digits, stopped, long, run⟩
  · refine .inl ⟨by rw [same], ?_⟩
    intro digits failed
    cases chars : readChars limit text.toList with
    | ok value =>
        rw [chars] at failed
        cases failed
    | error stop =>
        rw [chars] at failed never
        cases stop with
        | fault cause remaining => cases failed
        | oversized digits => exact never digits rfl
  · rw [stopped]
    exact .inr ⟨digits, rfl, long, run⟩

/-- No text of a value with an integer beyond the limit is read. -/
theorem oversized_of_not_fits {text : String} {value : Json}
    (read : Json.read none text = .ok value)
    (long : value.fits limit = false) :
    ∃ digits, Json.read limit text = .error (.oversized digits) := by
  rcases read_cases limit text with ⟨same, _⟩ | ⟨digits, stopped, _⟩
  · have fits := (readable_of_read (same.trans read)).fits
    rw [long] at fits
    cases fits
  · exact ⟨digits, stopped⟩

theorem readValue_oversized {digits rest : List Char} (parted : Parted rest)
    (nonempty : digits ≠ []) (every : ∀ c ∈ digits, isDigit c = true)
    (notZero : digits.head? ≠ some '0')
    (long : Numeral.exceeds limit digits.length = true) (fuel : Nat) :
    readValue limit (fuel + 1) (digits ++ rest) =
      .error (.oversized digits.length) := by
  have whole := readWhole?_append parted nonempty every notZero
  have magnitude := @readMagnitude?_of_whole rest parted limit false digits whole
  have number : numberOf limit false digits [] none =
      .error (.oversized digits.length) := if_pos long
  rw [number] at magnitude
  cases digits with
  | nil => exact absurd rfl nonempty
  | cons c others =>
      have digit := every c List.mem_cons_self
      rw [List.cons_append] at magnitude ⊢
      rw [← readNumber?_digit digit] at magnitude
      rw [readValue_scalar (ne_of_isDigit digit _ rfl)
        (ne_of_isDigit digit _ rfl) (ne_of_isDigit digit _ rfl)]
      exact readScalar_digit digit magnitude

theorem read_oversized {digits : List Char} (nonempty : digits ≠ [])
    (every : ∀ c ∈ digits, isDigit c = true)
    (notZero : digits.head? ≠ some '0')
    (long : Numeral.exceeds limit digits.length = true) :
    Json.read limit (String.ofList ('[' :: (digits ++ ['\n', ']']))) =
      .error (.oversized digits.length) := by
  have parted : Parted ['\n', ']'] := by simp [Parted]
  have item := readValue_oversized parted nonempty every notZero long
  have items : readItems limit (digits.length + 3) (digits ++ ['\n', ']']) =
      .error (.oversized digits.length) := by
    rw [readItems]
    exact Result.bind_eq_error_iff.mpr (.inl (item _))
  have value : readValue limit (digits.length + 4)
      ('[' :: (digits ++ ['\n', ']'])) = .error (.oversized digits.length) := by
    cases digits with
    | nil => exact absurd rfl nonempty
    | cons c others =>
        have digit := every c List.mem_cons_self
        rw [readValue, List.cons_append,
          skipSpace_cons (isSpace_of_isDigit digit)]
        split
        next same =>
          cases same
          cases digit
        next => exact Result.bind_eq_error_iff.mpr (.inl items)
  have chars : readChars limit ('[' :: (digits ++ ['\n', ']'])) =
      .error (.oversized digits.length) := by
    rw [readChars, skipSpace_cons rfl, List.length_cons, List.length_append]
    · exact Result.bind_eq_error_iff.mpr (.inl value)
    · simp
  rw [Json.read, String.toList_ofList, chars]
  rfl

end FormulaEdit.Json
