import FormulaEdit.Pattern.Quote
import FormulaEdit.Pattern.Reader
import FormulaEdit.Pattern.Template

/-!
# Quoted texts

A quoted text is read back as itself.  As a pattern, each character is a part
of its own, whether a backslash stands in front of it or not; as a template,
it stands for the text alone and refers to no group.
-/

namespace FormulaEdit.Pattern

theorem escapeChars_cons (escaped : Char → Bool) (c : Char) (text : List Char) :
    escapeChars escaped (c :: text) =
      (if escaped c then ['\\', c] else [c]) ++ escapeChars escaped text :=
  rfl

theorem length_le_escapeChars (escaped : Char → Bool) (text : List Char) :
    text.length ≤ (escapeChars escaped text).length := by
  induction text with
  | nil => exact Nat.le_refl 0
  | cons c text induction =>
      have first : 1 ≤ (if escaped c then ['\\', c] else [c]).length := by
        split
        next => exact Nat.le_add_left 1 1
        next => exact Nat.le_refl 1
      rw [escapeChars_cons, List.length_append, List.length_cons]
      omega

theorem escapeChars_ne {escaped : Char → Bool} (slash : escaped '\\' = true)
    (text : List Char) : escapeChars escaped text ≠ ['\\'] := by
  intro lone
  cases text with
  | nil => cases lone
  | cons c text =>
      rw [escapeChars_cons] at lone
      split at lone
      next => simp at lone
      next plain =>
        obtain ⟨rfl, _⟩ := List.cons.inj lone
        exact plain slash

theorem peek_escapeChars {escaped : Char → Bool} (slash : escaped '\\' = true)
    (position : Nat) (c : Char) (text : List Char) :
    Cursor.peek ⟨position, escapeChars escaped (c :: text)⟩ =
      if escaped c then ['\\', c] else [c] := by
  rw [escapeChars_cons]
  split
  next => rfl
  next plain =>
    have other : c ≠ '\\' := by
      rintro rfl
      exact plain slash
    simp [Cursor.peek, other]

theorem advance_escapeChars {escaped : Char → Bool}
    (slash : escaped '\\' = true) (position : Nat) (c : Char)
    (text : List Char) :
    ∃ later, Cursor.advance ⟨position, escapeChars escaped (c :: text)⟩ =
      .ok ⟨later, escapeChars escaped text⟩ := by
  refine ⟨position + (if escaped c then ['\\', c] else [c]).length, ?_⟩
  rw [Cursor.advance, peek_escapeChars slash, escapeChars_cons]
  simp only [List.drop_left]
  rw [Cursor.checked, if_neg (escapeChars_ne slash text)]

theorem ofText_escapeChars {escaped : Char → Bool}
    (slash : escaped '\\' = true) (text : List Char) :
    Cursor.ofText (escapeChars escaped text) =
      .ok ⟨0, escapeChars escaped text⟩ := by
  rw [Cursor.ofText, Cursor.checked, if_neg (escapeChars_ne slash text)]

/-! ## Templates -/

theorem isBackslash_backslash : isBackslash '\\' = true := rfl

theorem readParts_char {pattern : Compiled} {cursor next : Cursor} {c : Char}
    (token : cursor.peek = [c]) (behind : cursor.advance = .ok next)
    (fuel : Nat) :
    readParts pattern (fuel + 1) cursor =
      (readParts pattern fuel next).map (.char c :: ·) := by
  rw [readParts, token, behind]
  split
  next none => cases none
  next escape => cases escape
  next same =>
    cases same
    rfl

theorem readParts_backslash {pattern : Compiled} {cursor next : Cursor}
    (token : cursor.peek = ['\\', '\\']) (behind : cursor.advance = .ok next)
    (fuel : Nat) :
    readParts pattern (fuel + 1) cursor =
      (readParts pattern fuel next).map (.char '\\' :: ·) := by
  rw [readParts, token, behind]
  rfl

theorem readParts_quoteTemplate (pattern : Compiled) (text : List Char)
    (fuel position : Nat) (enough : text.length < fuel) :
    readParts pattern fuel ⟨position, quoteTemplate text⟩ =
      .ok (text.map TemplatePart.char) := by
  induction text generalizing fuel position with
  | nil =>
      cases fuel with
      | zero => rfl
      | succ fuel => rfl
  | cons c text induction =>
      obtain ⟨fuel, rfl⟩ : ∃ more, fuel = more + 1 :=
        Nat.exists_eq_add_one_of_ne_zero (Nat.ne_zero_of_lt enough)
      obtain ⟨later, behind⟩ := advance_escapeChars
        isBackslash_backslash position c text
      have token := peek_escapeChars isBackslash_backslash position c text
      have rest := induction fuel later (Nat.lt_of_succ_lt_succ enough)
      by_cases slash : isBackslash c = true
      · obtain rfl : c = '\\' := eq_of_beq slash
        rw [if_pos slash] at token
        rw [quoteTemplate] at rest ⊢
        rw [readParts_backslash token behind, rest]
        rfl
      · rw [if_neg slash] at token
        rw [quoteTemplate] at rest ⊢
        rw [readParts_char token behind, rest]
        rfl

/-- A quoted text is a template that stands for the text. -/
theorem readTemplate_quoteTemplate (pattern : Compiled) (text : List Char) :
    readTemplate pattern (quoteTemplate text) =
      .ok (text.map TemplatePart.char) := by
  have start : Cursor.ofText (quoteTemplate text) =
      .ok ⟨0, quoteTemplate text⟩ :=
    ofText_escapeChars isBackslash_backslash text
  rw [readTemplate, start]
  apply readParts_quoteTemplate
  exact Nat.lt_succ_of_le (length_le_escapeChars isBackslash text)

/-! ## Patterns -/

namespace Reading

variable {state : ReaderState}

theorem bind_ok {α β : Type} {first : Reading α} {value : α}
    {later : ReaderState} (ran : first.run state = .ok (value, later))
    (next : α → Reading β) :
    (first >>= next).run state = (next value).run later := by
  rw [StateT.run_bind, ran]
  rfl

theorem run_get (state : ReaderState) :
    (get : Reading ReaderState).run state = .ok (state, state) :=
  rfl

theorem run_onCursor {α : Type} {value : α} {next : Cursor}
    {read : Cursor → Except Located (α × Cursor)}
    (done : read state.cursor = .ok (value, next)) :
    (onCursor read).run state =
      .ok (value, { state with cursor := next }) := by
  rw [onCursor, bind_ok (run_get state), done]
  rfl

theorem run_peek (state : ReaderState) :
    peek.run state = .ok (state.cursor.peek, state) :=
  rfl

theorem run_position (state : ReaderState) :
    position.run state = .ok (state.cursor.position, state) :=
  rfl

theorem run_take {next : Cursor} (advance : state.cursor.advance = .ok next) :
    take.run state =
      .ok (state.cursor.peek, { state with cursor := next }) := by
  apply run_onCursor
  rw [advance]
  rfl

theorem run_accept {c : Char} (other : state.cursor.peek ≠ [c]) :
    (accept c).run state = .ok (false, state) := by
  change (if state.cursor.peek = [c] then
    (take >>= fun _ => pure true : Reading Bool) else pure false).run state = _
  rw [if_neg other]
  rfl

end Reading

open Reading

theorem escapes_of_isQuoted {c : Char} (quoted : isQuoted c = true) :
    anchorEscape? false c = none ∧ categoryEscape? c = none ∧
      (controlEscape? c = none ∨ controlEscape? c = some c.toNat) ∧
      isAsciiLetter c = false ∧ isAsciiDigit c = false := by
  have all : (quotedChars.all fun c => decide
      (anchorEscape? false c = none ∧ categoryEscape? c = none ∧
        (controlEscape? c = none ∨ controlEscape? c = some c.toNat) ∧
        isAsciiLetter c = false ∧ isAsciiDigit c = false)) = true := by
    decide
  exact of_decide_eq_true
    (List.all_eq_true.mp all c (List.contains_iff_mem.mp quoted))

theorem readEscape_quoted {c : Char} (quoted : isQuoted c = true)
    (state : ReaderState) :
    (readEscape {} c).run state = .ok (literal {} c.toNat, state) := by
  obtain ⟨noAnchor, noCategory, control, noLetter, noDigit⟩ :=
    escapes_of_isQuoted quoted
  have other : ∀ d, isAsciiLetter d = true → c ≠ d := by
    rintro d letter rfl
    rw [noLetter] at letter
    cases letter
  have noCode : readCodeEscape? c state.cursor = none := by
    simp [readCodeEscape?, other 'x' rfl, other 'u' rfl, other 'U' rfl,
      other 'N' rfl]
  have notZero : c ≠ '0' := by
    rintro rfl
    cases noDigit
  have plain : plainEscape c state.cursor = .ok (c.toNat, state.cursor) := by
    simp [plainEscape, noLetter, noDigit]
  rw [readEscape, noAnchor, noCategory]
  rcases control with none | some
  · rw [none]
    rw [bind_ok (run_get state), noCode]
    simp only [notZero, noDigit, if_false, Bool.false_eq_true]
    exact bind_ok (run_onCursor plain) _
  · rw [some]
    rfl

theorem readSequence_escaped {state : ReaderState} {next : Cursor} {c : Char}
    (quoted : isQuoted c = true) (token : state.cursor.peek = ['\\', c])
    (behind : state.cursor.advance = .ok next) (fuel : Nat) (leading : Bool)
    (parts : List Regex) :
    (readSequence (fuel + 1) {} leading parts).run state =
      (readSequence fuel {} leading (literal {} c.toNat :: parts)).run
        { state with cursor := next } := by
  rw [readSequence, bind_ok (run_peek state), token]
  simp only [List.isEmpty_cons, List.cons.injEq, reduceCtorEq, and_false,
    decide_false, Bool.or_self, Bool.false_eq_true, if_false, Bool.false_and]
  rw [bind_ok (run_position state), bind_ok (run_take behind)]
  exact bind_ok (readEscape_quoted quoted _) _

theorem isQuoted_backslash : isQuoted '\\' = true := rfl

theorem ne_of_isQuoted {c : Char} (plain : isQuoted c = false) (d : Char)
    (quoted : isQuoted d = true) : c ≠ d := by
  rintro rfl
  rw [plain] at quoted
  cases quoted

theorem readSingle_plain {c : Char} (plain : isQuoted c = false) :
    readSingle {} [c] = pure (literal {} c.toNat) := by
  have other := @ne_of_isQuoted c plain
  rw [readSingle]
  · rw [if_neg (other '[' rfl), if_neg (other '.' rfl),
      if_neg (other '^' rfl), if_neg (other '$' rfl)]
  · intro _ slash
    exact absurd slash (other '\\' rfl)

theorem readSequence_plain {state : ReaderState} {next : Cursor} {c : Char}
    (plain : isQuoted c = false) (token : state.cursor.peek = [c])
    (behind : state.cursor.advance = .ok next) (fuel : Nat) (leading : Bool)
    (parts : List Regex) :
    (readSequence (fuel + 1) {} leading parts).run state =
      (readSequence fuel {} leading (literal {} c.toNat :: parts)).run
        { state with cursor := next } := by
  have other := @ne_of_isQuoted c plain
  rw [readSequence, bind_ok (run_peek state), token]
  simp only [List.isEmpty_cons, List.cons.injEq, other '|' rfl, other ')' rfl,
    false_and, decide_false, Bool.or_self, Bool.false_eq_true, if_false,
    Bool.false_and]
  rw [bind_ok (run_position state), bind_ok (run_take behind)]
  split
  next paren => exact absurd (List.cons.inj paren).1 (other '(' rfl)
  next d same =>
    obtain ⟨rfl, _⟩ := List.cons.inj same
    simp only [other '*' rfl, other '+' rfl, other '?' rfl, other '\x7b' rfl,
      decide_false, Bool.or_self, Bool.false_eq_true, if_false]
    rw [readSingle_plain plain, pure_bind]
  next _ more => exact absurd rfl (more c)

/-- Reading a quoted text leaves one part for each character. -/
theorem readSequence_quote (text : List Char) (fuel : Nat)
    (enough : text.length < fuel) (leading : Bool) (parts : List Regex)
    (state : ReaderState) (position : Nat) :
    ∃ later, (readSequence fuel {} leading parts).run
        { state with cursor := ⟨position, quote text⟩ } =
      .ok (sequence ((text.map fun c => literal {} c.toNat).reverse ++ parts),
        { state with cursor := ⟨later, []⟩ }) := by
  induction text generalizing fuel parts position with
  | nil =>
      obtain ⟨fuel, rfl⟩ : ∃ more, fuel = more + 1 :=
        Nat.exists_eq_add_one_of_ne_zero (Nat.ne_zero_of_lt enough)
      refine ⟨position, ?_⟩
      rw [readSequence, bind_ok (run_peek _)]
      rfl
  | cons c text induction =>
      obtain ⟨fuel, rfl⟩ : ∃ more, fuel = more + 1 :=
        Nat.exists_eq_add_one_of_ne_zero (Nat.ne_zero_of_lt enough)
      obtain ⟨next, behind⟩ := advance_escapeChars
        isQuoted_backslash position c text
      have token := peek_escapeChars isQuoted_backslash position c text
      obtain ⟨later, read⟩ := induction fuel (Nat.lt_of_succ_lt_succ enough)
        (literal {} c.toNat :: parts) next
      refine ⟨later, ?_⟩
      rw [List.map_cons, List.reverse_cons, List.append_assoc,
        List.singleton_append, ← read]
      cases quoted : isQuoted c with
      | true =>
          rw [quoted, if_pos rfl] at token
          exact readSequence_escaped quoted token behind fuel leading parts
      | false =>
          rw [quoted, if_neg Bool.false_ne_true] at token
          exact readSequence_plain quoted token behind fuel leading parts

/-- The pattern of one text. -/
def exactly (text : List Char) : Compiled :=
  { regex := sequence (text.map fun c => literal {} c.toNat).reverse
    groups := 0
    names := [] }

theorem compile_quote (text : List Char) :
    compile (quote text) = .ok (exactly text) := by
  have start : Cursor.ofText (quote text) = .ok ⟨0, quote text⟩ :=
    ofText_escapeChars isQuoted_backslash text
  have enough : text.length < 4 * (quote text).length + 7 := by
    have longer : text.length ≤ (quote text).length :=
      length_le_escapeChars isQuoted text
    omega
  let state : ReaderState := { cursor := ⟨0, quote text⟩ }
  obtain ⟨later, read⟩ := readSequence_quote text _ enough true [] state 0
  rw [List.append_nil] at read
  have whole : (readAlternatives (4 * (quote text).length + 8) {} true).run
      state =
      .ok ((exactly text).regex, { state with cursor := ⟨later, []⟩ }) := by
    have noBar : (⟨later, []⟩ : Cursor).peek ≠ ['|'] :=
      (List.cons_ne_nil _ _).symm
    rw [readAlternatives, bind_ok read, bind_ok (run_accept noBar)]
    rfl
  rw [compile, start]
  change ((readAlternatives (4 * (quote text).length + 8) {} true >>=
    finishPattern).run state).map Prod.fst = _
  rw [bind_ok whole]
  rfl

end FormulaEdit.Pattern
