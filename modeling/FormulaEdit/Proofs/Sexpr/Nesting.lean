import FormulaEdit.Proofs.Sexpr.Spans
import Mathlib.Data.List.Induction
import Mathlib.Data.List.Infix

/-!
# Faults of nesting

Two parentheses match when the lexemes between them are balanced, which is said
by counting alone.  The compounds that are still unclosed hold balanced lexemes
behind each of their opening parentheses, so the innermost of them has the last
opening parenthesis without a match.  With the places of lexemes this gives the
main statement, `nesting_faults_located`: a text that leaves a compound open, or
goes on behind its formula, is refused with the place where it does so.
-/

namespace FormulaEdit.Sexpr

/-! ## Balanced lexemes -/

/-- By how much a lexeme changes the number of open parentheses. -/
def Lexeme.rise : Lexeme → Int
  | .opening _ => 1
  | .closing _ => -1
  | .atom _ _ => 0

/-- How many more parentheses lexemes open than they close. -/
def excess : List Lexeme → Int
  | [] => 0
  | lexeme :: rest => lexeme.rise + excess rest

@[simp] theorem excess_append (before after : List Lexeme) :
    excess (before ++ after) = excess before + excess after := by
  induction before with
  | nil => simp [excess]
  | cons lexeme before induction =>
      rw [List.cons_append, excess, excess, induction, Int.add_assoc]

/-- The lexemes close no parenthesis that was opened before them. -/
def StaysOpen (found : List Lexeme) : Prop :=
  ∀ start, start <+: found → 0 ≤ excess start

instance : DecidablePred StaysOpen := fun found =>
  decidable_of_iff (∀ start ∈ found.inits, 0 ≤ excess start)
    (by simp only [StaysOpen, List.mem_inits])

/-- The parentheses of the lexemes match each other. -/
@[mk_iff] structure Balanced (found : List Lexeme) : Prop where
  level : excess found = 0
  stays : StaysOpen found

instance : DecidablePred Balanced := fun found =>
  decidable_of_iff (excess found = 0 ∧ StaysOpen found)
    (balanced_iff found).symm

/-- The closing parenthesis that matches an opening one right before the
lexemes `later`: those between the two are balanced. -/
structure Closes (inside : List Lexeme) (closing : Position)
    (rest later : List Lexeme) : Prop where
  split : later = inside ++ .closing closing :: rest
  balanced : Balanced inside

/-- An opening parenthesis right before the lexemes is matched. -/
def Closed (later : List Lexeme) : Prop :=
  ∃ inside closing rest, Closes inside closing rest later

/-- An opening parenthesis without a match such that all opening ones behind it
have one. -/
structure LastUnmatched (found before : List Lexeme) (opening : Position)
    (after : List Lexeme) : Prop where
  split : found = before ++ .opening opening :: after
  unmatched : ¬Closed after
  matched_behind : ∀ between next rest,
    after = between ++ .opening next :: rest → Closed rest

namespace StaysOpen

variable {before after : List Lexeme}

theorem append (first : StaysOpen before) (second : StaysOpen after) :
    StaysOpen (before ++ after) := by
  rintro start ⟨tail, split⟩
  rcases List.append_eq_append_iff.mp split with
    ⟨more, whole, _⟩ | ⟨more, whole, others⟩
  · exact first start ⟨more, whole.symm⟩
  · rw [whole, excess_append]
    exact Int.add_nonneg (first before List.prefix_rfl)
      (second more ⟨tail, others.symm⟩)

theorem nil : StaysOpen [] := by decide

theorem cons {lexeme : Lexeme} (noFall : 0 ≤ lexeme.rise)
    (stays : StaysOpen after) : StaysOpen (lexeme :: after) := by
  intro start isStart
  rcases List.prefix_cons_iff.mp isStart with rfl | ⟨more, rfl, within⟩
  · exact Int.le_refl 0
  · exact Int.add_nonneg noFall (stays more within)

theorem opening (stays : StaysOpen after) (position : Position) :
    StaysOpen (.opening position :: after) :=
  stays.cons Int.one_nonneg

theorem not_closed (stays : StaysOpen after) : ¬Closed after := by
  rintro ⟨inside, closing, rest, rfl, balanced⟩
  have bound := stays (inside ++ [.closing closing]) ⟨rest, by simp⟩
  simp only [excess_append, balanced.level, excess, Lexeme.rise] at bound
  omega

end StaysOpen

/-- An opening parenthesis is matched by the first closing one that brings the
count below its own. -/
theorem closed_or_staysOpen (later : List Lexeme) :
    Closed later ∨ StaysOpen later := by
  induction later using List.reverseRecOn with
  | nil => exact .inr .nil
  | append_singleton later lexeme induction =>
      rcases induction with ⟨inside, closing, rest, rfl, balanced⟩ | stays
      · exact .inl ⟨inside, closing, rest ++ [lexeme], by simp, balanced⟩
      · by_cases below : excess (later ++ [lexeme]) < 0
        · -- Only a closing parenthesis behind balanced lexemes goes below.
          have bound := stays later List.prefix_rfl
          simp only [excess_append, excess] at below
          cases lexeme <;> simp only [Lexeme.rise] at below
          case closing closing =>
            exact .inl ⟨later, closing, [], rfl, by omega, stays⟩
          all_goals omega
        · right
          intro start isStart
          rcases List.prefix_concat_iff.mp isStart with rfl | within
          · exact Int.not_lt.mp below
          · exact stays start within

namespace Balanced

variable {before inside after : List Lexeme}

theorem nil : Balanced [] := by decide

theorem atom (text : String) (span : Span) : Balanced [.atom text span] where
  level := rfl
  stays := StaysOpen.nil.cons (Int.le_refl 0)

theorem append (first : Balanced before) (second : Balanced after) :
    Balanced (before ++ after) where
  level := by rw [excess_append, first.level, second.level, Int.add_zero]
  stays := first.stays.append second.stays

theorem enclosed (balanced : Balanced inside) (first last : Position) :
    Balanced (.opening first :: (inside ++ [.closing last])) where
  level := by
    rw [excess, excess_append, balanced.level]
    rfl
  stays := by
    intro start isStart
    rw [← List.cons_append] at isStart
    rcases List.prefix_concat_iff.mp isStart with rfl | within
    · rw [excess_append, excess, balanced.level]
      exact Int.le_refl 0
    · exact balanced.stays.opening first start within

theorem closed_behind {position : Position}
    (balanced : Balanced (before ++ .opening position :: after)) :
    Closed after := by
  rcases closed_or_staysOpen after with closed | stays
  · exact closed
  · -- The lexemes would open more parentheses than they close.
    have level := balanced.level
    have early := balanced.stays before (List.prefix_append ..)
    have late := stays after List.prefix_rfl
    simp only [excess_append, excess, Lexeme.rise] at level
    omega

end Balanced

namespace Closes

variable {inside other rest others later : List Lexeme}
  {closing second : Position}

theorem rest_eq_of_prefix (closes : Closes inside closing rest later)
    (again : Closes other second others later) (shorter : inside <+: other) :
    rest = others := by
  obtain ⟨more, rfl⟩ := shorter
  have same := closes.split.symm.trans again.split
  rw [List.append_assoc, List.append_cancel_left_eq] at same
  cases more with
  | nil =>
      cases same
      rfl
  | cons lexeme more =>
      -- The longer part would close what was opened before it.
      cases same
      exact absurd ⟨inside, closing, more, rfl, closes.balanced⟩
        again.balanced.stays.not_closed

theorem rest_eq (closes : Closes inside closing rest later)
    (again : Closes other second others later) : rest = others := by
  have isStart : inside <+: later := ⟨_, closes.split.symm⟩
  have isStartAgain : other <+: later := ⟨_, again.split.symm⟩
  rcases List.prefix_or_prefix_of_prefix isStart isStartAgain with
    shorter | longer
  · exact closes.rest_eq_of_prefix again shorter
  · exact (again.rest_eq_of_prefix closes longer).symm

end Closes

namespace Expr

mutual

theorem balanced_lexemes (expr : Expr) : Balanced expr.lexemes := by
  cases expr with
  | atom text span => exact .atom text span
  | compound items span => exact (balanced_lexemesAll items).enclosed _ _

theorem balanced_lexemesAll (items : List Expr) :
    Balanced (lexemesAll items) := by
  cases items with
  | nil => exact .nil
  | cons item items =>
      exact (balanced_lexemes item).append (balanced_lexemesAll items)

end

end Expr

/-! ## The stack of unclosed compounds -/

namespace Unclosed

theorem staysOpen_lexemes (compound : Unclosed) :
    StaysOpen compound.lexemes :=
  (Expr.balanced_lexemesAll compound.items.reverse).stays.opening _

/-- The outermost compound stays open up to the last lexeme. -/
theorem exists_pending_eq_cons (inner : Unclosed) (outer : List Unclosed) :
    ∃ first later, pending inner outer = .opening first :: later ∧
      StaysOpen later := by
  induction outer generalizing inner with
  | nil =>
      exact ⟨inner.opening, _, rfl, (Expr.balanced_lexemesAll _).stays⟩
  | cons next outer induction =>
      obtain ⟨first, later, whole, stays⟩ := induction next
      refine ⟨first, later ++ inner.lexemes, ?_,
        stays.append inner.staysOpen_lexemes⟩
      rw [pending, whole, List.cons_append]

theorem exists_lastUnmatched (inner : Unclosed) (outer : List Unclosed) :
    ∃ before after,
      LastUnmatched (pending inner outer) before inner.opening after := by
  have balanced := Expr.balanced_lexemesAll inner.items.reverse
  obtain ⟨before, split⟩ : ∃ before,
      pending inner outer = before ++ inner.lexemes := by
    cases outer with
    | nil => exact ⟨[], rfl⟩
    | cons next outer => exact ⟨pending next outer, rfl⟩
  refine ⟨before, _, split, balanced.stays.not_closed, ?_⟩
  intro between next rest whole
  rw [whole] at balanced
  exact balanced.closed_behind

end Unclosed

/-- Where the lexemes run out, all of them belong to unclosed compounds, and
the innermost of these is reported. -/
theorem assemble_eq_error {inner : Unclosed} {outer : List Unclosed}
    {found : List Lexeme} {cause : ReadError}
    (failed : assemble inner outer found = .error cause) :
    ∃ top below, cause = .unterminatedCompound top.opening ∧
      Unclosed.pending inner outer ++ found = Unclosed.pending top below := by
  fun_induction assemble inner outer found with
  | case1 inner outer =>
      cases failed
      exact ⟨inner, outer, rfl, List.append_nil _⟩
  | case2 inner outer position found induction =>
      obtain ⟨top, below, named, same⟩ := induction failed
      refine ⟨top, below, named, ?_⟩
      rw [← same, Unclosed.pending_open, List.append_assoc,
        List.singleton_append]
  | case3 inner outer text span found induction =>
      obtain ⟨top, below, named, same⟩ := induction failed
      refine ⟨top, below, named, ?_⟩
      rw [← same, Unclosed.pending_push, Expr.lexemes, List.append_assoc,
        List.singleton_append]
  | case4 => cases failed
  | case5 inner next outer position found induction =>
      obtain ⟨top, below, named, same⟩ := induction failed
      refine ⟨top, below, named, ?_⟩
      rw [← same, Unclosed.pending_close, List.append_assoc,
        List.singleton_append]

section Outcome

variable {first : Position} {later : List Lexeme}

theorem exists_closes_of_assemble {rest : List Lexeme} {expr : Expr}
    (assembled : assemble ⟨first, []⟩ [] later = .ok (expr, rest)) :
    ∃ inside closing, Closes inside closing rest later := by
  obtain ⟨compound, same⟩ := assemble_lexemes assembled
  cases expr with
  | atom => cases compound
  | compound items span =>
      refine ⟨Expr.lexemesAll items, span.last, ?_,
        Expr.balanced_lexemesAll items⟩
      simp only [Unclosed.pending, Unclosed.lexemes, Expr.lexemes,
        List.reverse_nil, Expr.lexemesAll, List.cons_append, List.nil_append,
        List.append_assoc, List.cons.injEq] at same
      exact same.2

/-- A fault of nesting is the last opening parenthesis without a match, and the
first one has none either. -/
theorem exists_lastUnmatched_of_assemble {cause : ReadError}
    (failed : assemble ⟨first, []⟩ [] later = .error cause) :
    StaysOpen later ∧ ∃ before opening after,
      cause = .unterminatedCompound opening ∧
      LastUnmatched (.opening first :: later) before opening after := by
  obtain ⟨top, below, named, same⟩ := assemble_eq_error failed
  obtain ⟨_, _, whole, stays⟩ := top.exists_pending_eq_cons below
  obtain ⟨before, after, last⟩ := top.exists_lastUnmatched below
  have found : .opening first :: later = Unclosed.pending top below := same
  rw [← found] at whole last
  cases whole
  exact ⟨stays, before, top.opening, after, named, last⟩

theorem ofLexemes_of_not_closed (unclosed : ¬Closed later) :
    ∃ before opening after,
      LastUnmatched (.opening first :: later) before opening after ∧
      ofLexemes (.opening first :: later) =
        .error (.unterminatedCompound opening) := by
  cases outcome : assemble ⟨first, []⟩ [] later with
  | ok made =>
      obtain ⟨inside, closing, closes⟩ := exists_closes_of_assemble outcome
      exact absurd ⟨inside, closing, _, closes⟩ unclosed
  | error cause =>
      obtain ⟨_, before, opening, after, rfl, last⟩ :=
        exists_lastUnmatched_of_assemble outcome
      refine ⟨before, opening, after, last, ?_⟩
      exact Result.bind_eq_error_iff.mpr (.inl outcome)

theorem ofLexemes_of_closes {inside rest : List Lexeme} {closing : Position}
    {extra : Lexeme} (closes : Closes inside closing (extra :: rest) later) :
    ofLexemes (.opening first :: later) =
      .error (.trailing extra.text extra.start) := by
  cases outcome : assemble ⟨first, []⟩ [] later with
  | ok made =>
      obtain ⟨_, _, again⟩ := exists_closes_of_assemble outcome
      have behind := again.rest_eq closes
      refine Result.bind_eq_error_iff.mpr (.inr ⟨made, outcome, ?_⟩)
      simp only [behind]
  | error cause =>
      have stays := (exists_lastUnmatched_of_assemble outcome).1
      exact absurd ⟨inside, closing, _, closes⟩ stays.not_closed

/-- A first parenthesis that is matched balances the lexemes up to its match. -/
theorem not_closed_of_excess
    (never : ∀ start, start <+: .opening first :: later → start ≠ [] →
      excess start ≠ 0) : ¬Closed later := by
  rintro ⟨inside, closing, rest, rfl, balanced⟩
  refine never (.opening first :: (inside ++ [.closing closing])) ?_
    (List.cons_ne_nil _ _) (balanced.enclosed first closing).level
  exact ⟨rest, by simp⟩

end Outcome

/-! ## The place of a fault -/

/-- A lexeme stands in a text between what spells other lexemes, at the place
of its first character. -/
def StandsBetween (text : List Char) (before : List Lexeme) (lexeme : Lexeme)
    (after : List Lexeme) : Prop :=
  ∃ lead tail, text = lead ++ lexeme.text.toList ++ tail ∧
    Spells (before.map Lexeme.token) lead ∧
    Spells (after.map Lexeme.token) tail ∧
    lexeme.start = place text lead.length

theorem Located.spells {places : Nat → Position} {index : Nat}
    {found : List Lexeme} {text : List Char}
    (located : Located places index found text) :
    Spells (found.map Lexeme.token) text := by
  induction located with
  | nil => exact .nil
  | blank blank _ induction => exact .blank blank induction
  | opening _ induction => exact .opening induction
  | closing _ induction => exact .closing induction
  | atom nonempty units ends _ induction =>
      exact .atom nonempty units ends induction

theorem Ends.of_append {lead rest : List Char} (ends : Ends (lead ++ rest)) :
    Ends lead := by
  cases lead with
  | nil => trivial
  | cons c lead => exact ends

theorem Located.exists_between {places : Nat → Position} {index : Nat}
    {before after : List Lexeme} {lexeme : Lexeme} {text : List Char}
    (located : Located places index (before ++ lexeme :: after) text) :
    ∃ lead tail, text = lead ++ lexeme.text.toList ++ tail ∧
      Spells (before.map Lexeme.token) lead ∧
      Spells (after.map Lexeme.token) tail ∧
      lexeme.start = places (index + lead.length) := by
  generalize whole : before ++ lexeme :: after = found at located
  induction located generalizing before with
  | nil => exact absurd whole (by simp)
  | @blank index c found rest blank _ induction =>
      obtain ⟨lead, tail, rfl, early, late, starts⟩ := induction whole
      refine ⟨c :: lead, tail, rfl, .blank blank early, late, ?_⟩
      rw [starts, List.length_cons, Nat.add_assoc, Nat.add_comm 1]
  | @opening index found rest located induction =>
      cases before with
      | nil =>
          cases whole
          exact ⟨[], rest, by simp [Lexeme.text], .nil, located.spells, rfl⟩
      | cons head before =>
          cases whole
          obtain ⟨lead, tail, rfl, early, late, starts⟩ := induction rfl
          refine ⟨'(' :: lead, tail, rfl, .opening early, late, ?_⟩
          rw [starts, List.length_cons, Nat.add_assoc, Nat.add_comm 1]
  | @closing index found rest located induction =>
      cases before with
      | nil =>
          cases whole
          exact ⟨[], rest, by simp [Lexeme.text], .nil, located.spells, rfl⟩
      | cons head before =>
          cases whole
          obtain ⟨lead, tail, rfl, early, late, starts⟩ := induction rfl
          refine ⟨')' :: lead, tail, rfl, .closing early, late, ?_⟩
          rw [starts, List.length_cons, Nat.add_assoc, Nat.add_comm 1]
  | @atom index word found rest nonempty units ends located induction =>
      cases before with
      | nil =>
          cases whole
          exact ⟨[], rest, by simp [Lexeme.text], .nil, located.spells, rfl⟩
      | cons head before =>
          cases whole
          obtain ⟨lead, tail, rfl, early, late, starts⟩ := induction rfl
          rw [List.append_assoc] at ends
          refine ⟨word ++ lead, tail, by simp,
            .atom nonempty units ends.of_append early, late, ?_⟩
          rw [starts, List.length_append, Nat.add_assoc]

theorem standsBetween_of_lexemes {text : List Char} {before after : List Lexeme}
    {lexeme : Lexeme}
    (scanned : lexemes text = .ok (before ++ lexeme :: after)) :
    StandsBetween text before lexeme after := by
  have between := (located_of_lexemes scanned).exists_between
  simp only [Nat.zero_add] at between
  exact between

/-- Reading refuses a text for a cause, with its wording. -/
structure Refused (text : String) (cause : ReadError) (wording : String) :
    Prop where
  outcome : read text = .error cause
  message : cause.message = wording

/-- Faults of nesting are reported where they are.  If no start of the lexemes
closes as many parentheses as it opens, the last opening parenthesis without a
match is named; if the first parenthesis is closed before the last lexeme, the
first lexeme behind its match is. -/
theorem nesting_faults_located {text : String} {first : Position}
    {later : List Lexeme}
    (scanned : lexemes text.toList = .ok (.opening first :: later)) :
    ((∀ start, start <+: .opening first :: later → start ≠ [] →
        excess start ≠ 0) →
      ∃ before opening after,
        LastUnmatched (.opening first :: later) before opening after ∧
        StandsBetween text.toList before (.opening opening) after ∧
        Refused text (.unterminatedCompound opening)
          ("unterminated compound opened at " ++
            s!"line {opening.line}, offset {opening.offset}")) ∧
    (∀ inside closing extra rest,
      Closes inside closing (extra :: rest) later →
        StandsBetween text.toList
          (.opening first :: (inside ++ [.closing closing])) extra rest ∧
        Refused text (.trailing extra.text extra.start)
          (s!"unexpected {Text.quoted extra.text} after the formula at " ++
            s!"line {extra.start.line}, offset {extra.start.offset}")) := by
  have refused : ∀ {cause},
      ofLexemes (.opening first :: later) = .error cause →
        read text = .error cause := by
    intro cause failed
    exact Result.bind_eq_error_iff.mpr (.inr ⟨_, scanned, failed⟩)
  constructor
  · intro never
    obtain ⟨before, opening, after, last, failed⟩ :=
      ofLexemes_of_not_closed (not_closed_of_excess never)
    refine ⟨before, opening, after, last, ?_, refused failed, rfl⟩
    rw [last.split] at scanned
    exact standsBetween_of_lexemes scanned
  · intro inside closing extra rest closes
    refine ⟨?_, refused (ofLexemes_of_closes closes), rfl⟩
    apply standsBetween_of_lexemes
    rw [scanned, closes.split]
    simp

/-- A text with two closed compounds and two unclosed ones, of which the second
starts its second line, and one in which an unclosed compound stands behind the
formula. -/
theorem nesting_faults_located_second_line :
    (∃ first later,
      lexemes "(a (b)\n (c (d) e".toList = .ok (.opening first :: later) ∧
      (∀ start, start <+: .opening first :: later → start ≠ [] →
        excess start ≠ 0) ∧
      ∃ before after,
        LastUnmatched (.opening first :: later) before ⟨1, 1⟩ after ∧
        StandsBetween "(a (b)\n (c (d) e".toList before (.opening ⟨1, 1⟩)
          after ∧
        Refused "(a (b)\n (c (d) e" (.unterminatedCompound ⟨1, 1⟩)
          "unterminated compound opened at line 1, offset 1") ∧
    ∃ first later inside closing rest,
      lexemes "(a (b)) c (d".toList = .ok (.opening first :: later) ∧
      Closes inside closing (.atom "c" ⟨⟨0, 8⟩, ⟨0, 8⟩⟩ :: rest) later ∧
      StandsBetween "(a (b)) c (d".toList
        (.opening first :: (inside ++ [.closing closing]))
        (.atom "c" ⟨⟨0, 8⟩, ⟨0, 8⟩⟩) rest ∧
      Refused "(a (b)) c (d" (.trailing "c" ⟨0, 8⟩)
        "unexpected 'c' after the formula at line 0, offset 8" := by
  constructor
  · have scanned : ∃ first later,
        lexemes "(a (b)\n (c (d) e".toList = .ok (.opening first :: later) ∧
        ∀ start ∈ List.inits (.opening first :: later), start ≠ [] →
          excess start ≠ 0 := ⟨_, _, rfl, by decide⟩
    obtain ⟨first, later, scanned, never⟩ := scanned
    simp only [List.mem_inits] at never
    obtain ⟨before, opening, after, last, stands, outcome, _⟩ :=
      (nesting_faults_located scanned).1 never
    have known : read "(a (b)\n (c (d) e" =
      .error (.unterminatedCompound ⟨1, 1⟩) := rfl
    obtain rfl : opening = ⟨1, 1⟩ := by
      rw [known] at outcome
      cases outcome
      rfl
    exact ⟨first, later, scanned, never, before, after, last, stands, outcome,
      by decide⟩
  · have inner : Balanced [.atom "a" ⟨⟨0, 1⟩, ⟨0, 1⟩⟩, .opening ⟨0, 3⟩,
        .atom "b" ⟨⟨0, 4⟩, ⟨0, 4⟩⟩, .closing ⟨0, 5⟩] := by decide
    have closes : Closes _ ⟨0, 6⟩ [.atom "c" ⟨⟨0, 8⟩, ⟨0, 8⟩⟩,
        .opening ⟨0, 10⟩, .atom "d" ⟨⟨0, 11⟩, ⟨0, 11⟩⟩] _ := ⟨rfl, inner⟩
    have scanned : lexemes "(a (b)) c (d".toList = .ok (.opening ⟨0, 0⟩ :: _) :=
      rfl
    obtain ⟨stands, outcome, _⟩ :=
      (nesting_faults_located scanned).2 _ _ _ _ closes
    exact ⟨_, _, _, _, _, scanned, closes, stands, outcome, by decide⟩

end FormulaEdit.Sexpr
