import FormulaEdit.Proofs.Sexpr.Places
import FormulaEdit.Proofs.Sexpr.Reading

/-!
# Spans are exact

Scanning leaves every lexeme at the place of its first character, and an atom
ends at the place of its last one.  `Located` says so for the lexemes of a
text, and `Fills` for the expressions that are put together from them: each
fills a range of the text, compounds with the ranges of their items inside.
-/

namespace FormulaEdit.Sexpr

/-! ## Scanning keeps to the places -/

/-- From an index on, places follow the characters of a text. -/
def Tracks (places : Nat → Position) (index : Nat) (text : List Char) : Prop :=
  ∀ count c rest, text.drop count = c :: rest →
    places (index + count + 1) = (places (index + count)).next c rest

theorem tracks_place (text : List Char) : Tracks (place text) 0 text := by
  intro count c rest found
  rw [Nat.zero_add]
  exact place_succ found

namespace Tracks

variable {places : Nat → Position} {index : Nat} {c : Char}
  {before rest : List Char}

theorem head (tracks : Tracks places index (c :: rest)) :
    places (index + 1) = (places index).next c rest :=
  tracks 0 c rest rfl

theorem drop (tracks : Tracks places index (before ++ rest)) :
    Tracks places (index + before.length) rest := by
  intro count d others found
  have moved := tracks (before.length + count) d others (by
    rw [List.drop_append, List.drop_eq_nil_of_le (Nat.le_add_right _ _),
      Nat.add_sub_cancel_left, found, List.nil_append])
  rwa [← Nat.add_assoc] at moved

theorem tail (tracks : Tracks places index (c :: rest)) :
    Tracks places (index + 1) rest :=
  @drop places index [c] rest tracks

end Tracks

theorem scan_cons {places : Nat → Position} {index : Nat} {c : Char}
    {rest : List Char} {mode next : Mode}
    (tracks : Tracks places index (c :: rest))
    (step : mode.step (places index) c = ([], next)) :
    scan mode (places index) (c :: rest) =
      scan next (places (index + 1)) rest := by
  simp [scan, step, tracks.head]

section Words

variable {places : Nat → Position} {rest : List Char}

theorem scan_literal {body : List Char} (inside : LiteralBody body)
    (start quote : Position) (sofar : List Char) {index : Nat}
    (tracks : Tracks places index (body ++ '"' :: rest)) :
    scan (.literal start quote sofar) (places index) (body ++ '"' :: rest) =
      scan (.atom start (places (index + body.length))
        ('"' :: (body.reverse ++ sofar)))
        (places (index + body.length + 1)) rest := by
  induction inside generalizing sofar index with
  | nil => exact scan_cons tracks (by simp [Mode.step])
  | @pair c body _ induction =>
      have length : index + ('\\' :: c :: body).length =
          index + 1 + 1 + body.length := by
        simp only [List.length_cons]
        omega
      rw [length]
      calc
        scan (.literal start quote sofar) (places index)
            ('\\' :: c :: (body ++ '"' :: rest)) =
          scan (.literalEscape start quote ('\\' :: sofar))
            (places (index + 1)) (c :: (body ++ '"' :: rest)) :=
          scan_cons tracks (by simp [Mode.step])
        _ = scan (.literal start quote (c :: '\\' :: sofar))
            (places (index + 1 + 1)) (body ++ '"' :: rest) :=
          scan_cons tracks.tail rfl
        _ = _ := by
          rw [induction _ tracks.tail.tail]
          simp
  | @plain c body noQuote noSlash _ induction =>
      have length : index + (c :: body).length = index + 1 + body.length := by
        simp only [List.length_cons]
        omega
      rw [length]
      calc
        scan (.literal start quote sofar) (places index)
            (c :: (body ++ '"' :: rest)) =
          scan (.literal start quote (c :: sofar)) (places (index + 1))
            (body ++ '"' :: rest) :=
          scan_cons tracks (by simp [Mode.step, noQuote, noSlash])
        _ = _ := by
          rw [induction _ tracks.tail]
          simp

theorem scan_unit {unit : List Char} (is : AtomUnit unit)
    (start last : Position) (sofar : List Char) {index : Nat}
    (tracks : Tracks places index (unit ++ rest)) :
    scan (.atom start last sofar) (places index) (unit ++ rest) =
      scan (.atom start (places (index + unit.length - 1))
        (unit.reverse ++ sofar)) (places (index + unit.length)) rest := by
  cases is with
  | pair c =>
      calc
        scan (.atom start last sofar) (places index) ('\\' :: c :: rest) =
          scan (.atomEscape start (places index) ('\\' :: sofar))
            (places (index + 1)) (c :: rest) :=
          scan_cons tracks rfl
        _ = scan (.atom start (places (index + 1)) (c :: '\\' :: sofar))
            (places (index + 1 + 1)) rest :=
          scan_cons tracks.tail rfl
  | @literal body inside =>
      have length : index + ('"' :: body ++ ['"']).length =
          index + 1 + body.length + 1 := by
        simp only [List.cons_append, List.length_cons, List.length_append,
          List.length_nil]
        omega
      rw [List.append_assoc] at tracks ⊢
      rw [length, Nat.add_sub_cancel]
      have inner : Tracks places (index + 1) (body ++ '"' :: rest) :=
        tracks.tail
      calc
        scan (.atom start last sofar) (places index)
            ('"' :: (body ++ '"' :: rest)) =
          scan (.literal start (places index) ('"' :: sofar))
            (places (index + 1)) (body ++ '"' :: rest) :=
          scan_cons tracks rfl
        _ = _ := by
          rw [scan_literal inside _ _ _ inner]
          simp
  | @plain c ordinary noQuote noSlash =>
      have inside : Mode.isDelimiter c = false := by
        simpa using fun delimits => ordinary (isDelimiter_iff.mp delimits)
      exact scan_cons tracks
        (by simp [Mode.step, Mode.extend, inside, noQuote, noSlash])

theorem scan_units {word : List Char} (units : Units word)
    (start : Position) (sofar : List Char) {index : Nat}
    (tracks : Tracks places index (word ++ rest)) :
    scan (.atom start (places (index - 1)) sofar) (places index)
        (word ++ rest) =
      scan (.atom start (places (index + word.length - 1))
        (word.reverse ++ sofar)) (places (index + word.length)) rest := by
  induction units generalizing sofar index with
  | nil => rfl
  | @cons unit word is _ induction =>
      rw [List.append_assoc] at tracks ⊢
      rw [scan_unit is _ _ _ tracks, induction _ tracks.drop]
      simp [Nat.add_assoc]

/-- An atom that starts is an empty atom that goes on. -/
theorem scan_gap_of_ordinary {c : Char} (ordinary : ¬Delimits c)
    (position last : Position) (text : List Char) :
    scan .gap position (c :: text) =
      scan (.atom position last []) position (c :: text) := by
  have inside : Mode.isDelimiter c = false := by
    simpa using fun delimits => ordinary (isDelimiter_iff.mp delimits)
  have apart : Text.isBlank c = false ∧ c ≠ '(' ∧ c ≠ ')' := by
    simpa [Mode.isDelimiter, and_assoc] using inside
  simp [scan, Mode.step, Mode.outside, inside, apart]

theorem scan_word {word : List Char} (nonempty : word ≠ [])
    (units : Units word) {index : Nat}
    (tracks : Tracks places index (word ++ rest)) :
    scan .gap (places index) (word ++ rest) =
      scan (.atom (places index) (places (index + word.length - 1))
        word.reverse) (places (index + word.length)) rest := by
  obtain ⟨c, others, rfl⟩ := List.exists_cons_of_ne_nil nonempty
  rw [List.cons_append,
    scan_gap_of_ordinary units.head (places index) (places (index - 1)),
    ← List.cons_append, scan_units units _ _ tracks, List.append_nil]

theorem finish_scan_atom {start last position : Position}
    {sofar : List Char} (ends : Ends rest) :
    finish (scan (.atom start last sofar) position rest).1
        (scan (.atom start last sofar) position rest).2 =
      (finish (scan .gap position rest).1 (scan .gap position rest).2).map
        (Mode.atomLexeme start last sofar :: ·) := by
  cases rest with
  | nil => rfl
  | cons c rest =>
      have delimits : Mode.isDelimiter c = true := isDelimiter_iff.mpr ends
      simp only [scan, Mode.step, delimits, if_true]
      rw [List.cons_append]
      exact finish_append [_] _ _

end Words

/-! ## Lexemes in their places -/

/-- From an index on, a text spells lexemes, and each of them stands at the
places of its first and last character. -/
inductive Located (places : Nat → Position) :
    (index : Nat) → List Lexeme → List Char → Prop where
  | nil {index : Nat} : Located places index [] []
  | blank {index : Nat} {c : Char} {found : List Lexeme} {rest : List Char} :
      Text.isBlank c = true → Located places (index + 1) found rest →
      Located places index found (c :: rest)
  | opening {index : Nat} {found : List Lexeme} {rest : List Char} :
      Located places (index + 1) found rest →
      Located places index (.opening (places index) :: found) ('(' :: rest)
  | closing {index : Nat} {found : List Lexeme} {rest : List Char} :
      Located places (index + 1) found rest →
      Located places index (.closing (places index) :: found) (')' :: rest)
  | atom {index : Nat} {word : List Char} {found : List Lexeme}
      {rest : List Char} :
      word ≠ [] → Units word → Ends rest →
      Located places (index + word.length) found rest →
      Located places index
        (.atom (String.ofList word)
          ⟨places index, places (index + word.length - 1)⟩ :: found)
        (word ++ rest)

/-- What a text spells can be located in it. -/
theorem Spells.exists_located {tokens : List Token} {text : List Char}
    (spells : Spells tokens text) (places : Nat → Position) (index : Nat) :
    ∃ found, Located places index found text ∧
      found.map Lexeme.token = tokens := by
  induction spells generalizing index with
  | nil => exact ⟨[], .nil, rfl⟩
  | blank blank _ induction =>
      obtain ⟨found, located, same⟩ := induction (index + 1)
      exact ⟨found, .blank blank located, same⟩
  | opening _ induction =>
      obtain ⟨found, located, rfl⟩ := induction (index + 1)
      exact ⟨_, .opening located, rfl⟩
  | closing _ induction =>
      obtain ⟨found, located, rfl⟩ := induction (index + 1)
      exact ⟨_, .closing located, rfl⟩
  | @atom word _ _ nonempty units ends _ induction =>
      obtain ⟨found, located, rfl⟩ := induction (index + word.length)
      exact ⟨_, .atom nonempty units ends located, rfl⟩

/-- The scanner finds located lexemes where they are. -/
theorem Located.finish_scan {places : Nat → Position} {index : Nat}
    {found : List Lexeme} {text : List Char}
    (located : Located places index found text)
    (tracks : Tracks places index text) :
    finish (scan .gap (places index) text).1
      (scan .gap (places index) text).2 = .ok found := by
  induction located with
  | nil => rfl
  | @blank index c _ _ blank _ induction =>
      have skipped : Mode.step (places index) c .gap = ([], .gap) := by
        simp [Mode.step, Mode.outside, blank]
      rw [scan_cons tracks skipped]
      exact induction tracks.tail
  | @opening index found rest _ induction =>
      have later := induction tracks.tail
      rw [tracks.head] at later
      have made : (Mode.step (places index) '(' .gap) =
          ([.opening (places index)], .gap) := rfl
      simp only [scan, made]
      rw [finish_append, later]
      rfl
  | @closing index found rest _ induction =>
      have later := induction tracks.tail
      rw [tracks.head] at later
      have made : (Mode.step (places index) ')' .gap) =
          ([.closing (places index)], .gap) := rfl
      simp only [scan, made]
      rw [finish_append, later]
      rfl
  | atom nonempty units ends _ induction =>
      rw [scan_word nonempty units tracks, finish_scan_atom ends,
        induction tracks.drop]
      simp [Except.map, Mode.atomLexeme]

theorem located_of_lexemes {text : List Char} {found : List Lexeme}
    (split : lexemes text = .ok found) :
    Located (place text) 0 found text := by
  have spells := lexemes_eq_ok_iff.mp ⟨found, split, rfl⟩
  obtain ⟨again, located, _⟩ := spells.exists_located (place text) 0
  have scanned := located.finish_scan (tracks_place text)
  rw [place_zero] at scanned
  have same : lexemes text = .ok again := scanned
  rw [split] at same
  cases same
  exact located

/-- Lexemes are located in a text with no white space before the first. -/
def LocatedAtOnce (places : Nat → Position) (index : Nat) :
    List Lexeme → List Char → Prop
  | [], text => text = []
  | .opening position :: found, text =>
      ∃ rest, position = places index ∧ text = '(' :: rest ∧
        Located places (index + 1) found rest
  | .closing position :: found, text =>
      ∃ rest, position = places index ∧ text = ')' :: rest ∧
        Located places (index + 1) found rest
  | .atom name span :: found, text =>
      ∃ word rest, name = String.ofList word ∧
        span = ⟨places index, places (index + word.length - 1)⟩ ∧
        word ≠ [] ∧ Units word ∧ Ends rest ∧ text = word ++ rest ∧
        Located places (index + word.length) found rest

theorem Located.exists_gap {places : Nat → Position} {index : Nat}
    {found : List Lexeme} {text : List Char}
    (located : Located places index found text) :
    ∃ gap rest, Blank gap ∧ text = gap ++ rest ∧
      LocatedAtOnce places (index + gap.length) found rest := by
  induction located with
  | nil => exact ⟨[], [], blank_nil, rfl, rfl⟩
  | @blank index c _ _ blank _ induction =>
      obtain ⟨gap, rest, gapBlank, rfl, atOnce⟩ := induction
      refine ⟨c :: gap, rest, List.forall_mem_cons.mpr ⟨blank, gapBlank⟩,
        rfl, ?_⟩
      rwa [List.length_cons, ← Nat.add_assoc, Nat.add_right_comm]
  | opening later => exact ⟨[], _, blank_nil, rfl, _, rfl, rfl, later⟩
  | closing later => exact ⟨[], _, blank_nil, rfl, _, rfl, rfl, later⟩
  | atom nonempty units ends later =>
      exact ⟨[], _, blank_nil, rfl, _, _, rfl, rfl, nonempty, units, ends,
        rfl, later⟩

/-! ## Expressions in their ranges -/

mutual

/-- An expression fills a text that starts at an index, and its span goes from
the first to the last character of the text. -/
inductive Fills (places : Nat → Position) :
    (index : Nat) → Expr → List Char → Prop where
  | atom {index : Nat} {word : List Char} :
      word ≠ [] → Units word →
      Fills places index (.atom (String.ofList word)
        ⟨places index, places (index + word.length - 1)⟩) word
  | compound {index : Nat} {items : List Expr} {inside : List Char} :
      FillsItems places (index + 1) items inside →
      Fills places index (.compound items
        ⟨places index, places (index + inside.length + 1)⟩)
        ('(' :: (inside ++ [')']))

/-- Expressions fill parts of a text, one behind the other and with nothing
but white space around them. -/
inductive FillsItems (places : Nat → Position) :
    (index : Nat) → List Expr → List Char → Prop where
  | nil {index : Nat} {gap : List Char} :
      Blank gap → FillsItems places index [] gap
  | cons {index : Nat} {item : Expr} {items : List Expr}
      {gap text rest : List Char} :
      Blank gap → Fills places (index + gap.length) item text →
      (item.shape.isAtom = true → Ends (rest ++ [')'])) →
      FillsItems places (index + gap.length + text.length) items rest →
      FillsItems places index (item :: items) (gap ++ text ++ rest)

end

section

variable {places : Nat → Position}

mutual

theorem Located.exists_fills (expr : Expr) {index : Nat}
    {later : List Lexeme} {text : List Char}
    (located : Located places index (expr.lexemes ++ later) text) :
    ∃ gap body rest, Blank gap ∧ text = gap ++ body ++ rest ∧
      Fills places (index + gap.length) expr body ∧
      (expr.shape.isAtom = true → Ends rest) ∧
      Located places (index + gap.length + body.length) later rest := by
  match expr with
  | .atom name span =>
      obtain ⟨gap, _, gapBlank, rfl, word, rest, rfl, rfl, nonempty, units,
        ends, rfl, behind⟩ := located.exists_gap
      exact ⟨gap, word, rest, gapBlank, (List.append_assoc ..).symm,
        .atom nonempty units, fun _ => ends, behind⟩
  | .compound items ⟨first, last⟩ =>
      rw [Expr.lexemes, List.cons_append, List.append_assoc] at located
      obtain ⟨gap, _, gapBlank, rfl, _, rfl, rfl, within⟩ :=
        located.exists_gap
      obtain ⟨inside, rest, rfl, rfl, filled, behind⟩ :=
        Located.exists_fillsItems items within
      rw [Nat.add_right_comm _ 1] at behind ⊢
      refine ⟨gap, '(' :: (inside ++ [')']), rest, gapBlank, by simp,
        .compound filled, by simp [Expr.shape], ?_⟩
      simpa [Nat.add_assoc] using behind

/-- Located lexemes of items in front of a closing parenthesis make them fill
the text up to it. -/
theorem Located.exists_fillsItems (items : List Expr) {index : Nat}
    {closing : Position} {later : List Lexeme} {text : List Char}
    (located : Located places index
      (Expr.lexemesAll items ++ .closing closing :: later) text) :
    ∃ inside rest, closing = places (index + inside.length) ∧
      text = inside ++ ')' :: rest ∧
      FillsItems places index items inside ∧
      Located places (index + inside.length + 1) later rest := by
  match items with
  | [] =>
      obtain ⟨gap, _, gapBlank, rfl, rest, rfl, rfl, behind⟩ :=
        located.exists_gap
      exact ⟨gap, rest, rfl, rfl, .nil gapBlank, behind⟩
  | item :: items =>
      rw [Expr.lexemesAll, List.append_assoc] at located
      obtain ⟨gap, body, _, gapBlank, rfl, filled, ends, within⟩ :=
        Located.exists_fills item located
      obtain ⟨inside, rest, rfl, rfl, others, behind⟩ :=
        Located.exists_fillsItems items within
      have apart : item.shape.isAtom = true → Ends (inside ++ [')']) := by
        intro atom
        have touching := ends atom
        cases inside with
        | nil => exact .inr (.inr rfl)
        | cons c inside => exact touching
      refine ⟨gap ++ body ++ inside, rest, ?_, by simp,
        .cons gapBlank filled apart others, ?_⟩
      · simp [Nat.add_assoc]
      · simpa [Nat.add_assoc] using behind

end

theorem Fills.span_eq {index : Nat} {expr : Expr} {body : List Char}
    (fills : Fills places index expr body) :
    body ≠ [] ∧
      expr.span = ⟨places index, places (index + body.length - 1)⟩ := by
  cases fills with
  | atom nonempty => exact ⟨nonempty, rfl⟩
  | @compound _ _ inside =>
      refine ⟨List.cons_ne_nil _ _, ?_⟩
      simp [Expr.span, Nat.add_assoc]

mutual

theorem Fills.spells {index : Nat} {expr : Expr} {body rest : List Char}
    {tokens : List Token} (fills : Fills places index expr body)
    (ends : expr.shape.isAtom = true → Ends rest)
    (spells : Spells tokens rest) :
    Spells (expr.shape.tokens ++ tokens) (body ++ rest) := by
  cases fills with
  | atom nonempty units => exact .atom nonempty units (ends rfl) spells
  | compound filled =>
      simp only [Expr.shape, Shape.tokens, List.cons_append,
        List.append_assoc, List.nil_append]
      exact .opening (filled.spells (.closing spells))

theorem FillsItems.spells {index : Nat} {items : List Expr}
    {inside rest : List Char} {tokens : List Token}
    (fills : FillsItems places index items inside)
    (spells : Spells tokens (')' :: rest)) :
    Spells (Shape.tokensAll (Expr.shapes items) ++ tokens)
      (inside ++ ')' :: rest) := by
  cases fills with
  | nil blank => exact Spells.append_blank blank spells
  | @cons _ item items gap text others blank filled apart later =>
      rw [Expr.shapes, Shape.tokensAll, List.append_assoc,
        List.append_assoc, List.append_assoc]
      apply Spells.append_blank blank
      apply filled.spells
      · intro atom
        have touching := apart atom
        cases others with
        | nil => exact .inr (.inr rfl)
        | cons c others => exact touching
      · exact later.spells spells

end

theorem FillsItems.exists_item {index : Nat} {items : List Expr}
    {inside : List Char} (fills : FillsItems places index items inside)
    {item : Expr} (member : item ∈ items) :
    ∃ before body after, inside = before ++ body ++ after ∧
      Fills places (index + before.length) item body := by
  induction items generalizing index inside with
  | nil => cases member
  | cons first items induction =>
      cases fills with
      | @cons _ _ _ gap text rest blank filled apart later =>
          rcases List.mem_cons.mp member with same | inLater
          · subst same
            exact ⟨gap, text, rest, rfl, filled⟩
          · obtain ⟨before, body, after, rfl, found⟩ := induction later inLater
            refine ⟨gap ++ text ++ before, body, after, by simp, ?_⟩
            simpa [Nat.add_assoc] using found

end

/-- An expression is the whole of another one or lies in one of its items. -/
inductive Part (part : Expr) : Expr → Prop where
  | whole : Part part part
  | item {item : Expr} {items : List Expr} {span : Span} :
      item ∈ items → Part part item → Part part (.compound items span)

theorem Fills.exists_part {places : Nat → Position} {part whole : Expr}
    (inner : Part part whole) {index : Nat} {body : List Char}
    (fills : Fills places index whole body) :
    ∃ before within after, body = before ++ within ++ after ∧
      Fills places (index + before.length) part within := by
  induction inner generalizing index body with
  | whole => exact ⟨[], body, [], by simp, fills⟩
  | item member _ induction =>
      cases fills with
      | compound filled =>
          obtain ⟨before, text, after, rfl, itemFills⟩ :=
            filled.exists_item member
          obtain ⟨lead, within, tail, rfl, found⟩ := induction itemFills
          refine ⟨'(' :: (before ++ lead), within, tail ++ after ++ [')'],
            by simp, ?_⟩
          simpa [Nat.add_assoc, Nat.add_comm, Nat.add_left_comm] using found

/-! ## What spans say -/

/-- An expression has a range of a text as its span. -/
structure Covers (text : List Char) (expr : Expr) (range : Nat × Nat) :
    Prop where
  ordered : range.1 ≤ range.2
  bounded : range.2 < text.length
  span : expr.span = ⟨place text range.1, place text range.2⟩

theorem FillsItems.exists_ranges {text inside : List Char} {index : Nat}
    {items : List Expr}
    (fills : FillsItems (place text) index items inside)
    (bound : index + inside.length ≤ text.length) :
    ∃ ranges, List.Forall₂ (Covers text) items ranges ∧
      ranges.Pairwise (fun left right => left.2 < right.1) ∧
      ∀ range ∈ ranges, index ≤ range.1 ∧
        range.2 < index + inside.length := by
  induction items generalizing index inside with
  | nil => exact ⟨[], .nil, .nil, by simp⟩
  | cons first items induction =>
      cases fills with
      | @cons _ _ _ gap body rest blank filled apart later =>
          simp only [List.length_append] at bound ⊢
          obtain ⟨ranges, covers, ordered, bounds⟩ :=
            induction later (by omega)
          obtain ⟨nonempty, span⟩ := filled.span_eq
          have positive := List.length_pos_iff.mpr nonempty
          let range :=
            (index + gap.length, index + gap.length + body.length - 1)
          have firstCovers : Covers text first range :=
            { ordered := by simp only [range]; omega
              bounded := by simp only [range]; omega
              span := span }
          refine ⟨range :: ranges, .cons firstCovers covers,
            .cons ?_ ordered, ?_⟩
          · intro other member
            have behind := (bounds other member).1
            simp only [range]
            omega
          · rw [List.forall_mem_cons]
            refine ⟨by simp only [range]; omega, ?_⟩
            intro other member
            have behind := bounds other member
            omega

/-- The characters of a range, its last one included. -/
def slice (text : List Char) (range : Nat × Nat) : List Char :=
  (text.drop range.1).take (range.2 + 1 - range.1)

/-- What a range of a text holds when it is the span of an expression. -/
def Exact (text : List Char) (range : Nat × Nat) : Expr → Prop
  | .atom name _ => slice text range = name.toList
  | .compound items span =>
      (∃ inside, slice text range = '(' :: (inside ++ [')'])) ∧
      (∃ ranges, List.Forall₂ (Covers text) items ranges ∧
        ranges.Pairwise (fun left right => left.2 < right.1) ∧
        ∀ inner ∈ ranges, range.1 < inner.1 ∧ inner.2 < range.2) ∧
      ∃ again, read (String.ofList (slice text range)) = .ok again ∧
        again.shape = (Expr.compound items span).shape

theorem slice_append {before within after : List Char}
    (nonempty : within ≠ []) :
    slice (before ++ within ++ after)
      (before.length, before.length + within.length - 1) = within := by
  have positive := List.length_pos_iff.mpr nonempty
  have length : before.length + within.length - 1 + 1 - before.length =
      within.length := by omega
  rw [slice, List.append_assoc, List.drop_left, length, List.take_left]

/-- The text that a compound fills reads as that compound. -/
theorem Fills.exists_read {places : Nat → Position} {index : Nat}
    {items : List Expr} {span : Span} {body : List Char}
    (fills : Fills places index (.compound items span) body) :
    ∃ again, read (String.ofList body) = .ok again ∧
      again.shape = (Expr.compound items span).shape := by
  have spells := fills.spells (fun atom => by cases atom) Spells.nil
  rw [List.append_nil, List.append_nil] at spells
  have formula := formula_iff_spells.mpr ⟨rfl, spells⟩
  rw [read, String.toList_ofList]
  exact readChars_eq_ok_iff.mpr formula

theorem Fills.exact {text before within after : List Char} {expr : Expr}
    (split : text = before ++ within ++ after)
    (fills : Fills (place text) before.length expr within) :
    Exact text (before.length, before.length + within.length - 1) expr := by
  have cut : slice text
      (before.length, before.length + within.length - 1) = within := by
    rw [split]
    exact slice_append fills.span_eq.1
  have size := congrArg List.length split
  cases expr with
  | atom name span =>
      cases fills with
      | atom nonempty units =>
          rw [Exact, cut, String.toList_ofList]
  | compound items span =>
      have again := fills.exists_read
      rw [← cut] at again
      refine ⟨?_, ?_, again⟩
      · rw [cut]
        cases fills with
        | @compound _ _ inside _ => exact ⟨inside, rfl⟩
      · cases fills with
        | @compound _ _ inside filled =>
            simp only [List.length_append, List.length_cons,
              List.length_nil] at size
            obtain ⟨ranges, covers, ordered, bounds⟩ :=
              filled.exists_ranges (by omega)
            refine ⟨ranges, covers, ordered, ?_⟩
            intro inner member
            have bound := bounds inner member
            simp only [List.length_cons, List.length_append, List.length_nil]
            omega

/-- Spans are exact: places grow with their indices, and the span of every
part of what is read is one range of the text, which holds that part. -/
theorem spans_exact (text : String) :
    (StrictMono fun index => (place text.toList index).key) ∧
    ∀ whole part, read text = .ok whole → Part part whole →
      ∃ range, Covers text.toList part range ∧
        (∀ first last, part.span =
          ⟨place text.toList first, place text.toList last⟩ →
            (first, last) = range) ∧
        Exact text.toList range part := by
  refine ⟨strictMono_place text.toList, ?_⟩
  intro whole part ok inner
  obtain ⟨found, split, together⟩ := Result.bind_eq_ok_iff.mp ok
  obtain ⟨_, rfl⟩ := ofLexemes_lexemes together
  have located := located_of_lexemes split
  rw [← List.append_nil whole.lexemes] at located
  obtain ⟨gap, body, rest, _, around, fills, _⟩ := located.exists_fills whole
  obtain ⟨before, within, after, rfl, partFills⟩ := fills.exists_part inner
  have position : text.toList =
      (gap ++ before) ++ within ++ (after ++ rest) := by
    rw [around]
    simp
  rw [Nat.zero_add, ← List.length_append] at partFills
  obtain ⟨nonempty, span⟩ := partFills.span_eq
  have positive := List.length_pos_iff.mpr nonempty
  have size := congrArg List.length position
  rw [List.length_append, @List.length_append _ _ within] at size
  refine ⟨_, ⟨?_, ?_, span⟩, ?_, partFills.exact position⟩
  · simp only
    omega
  · simp only
    omega
  · intro first last again
    rw [span, Span.mk.injEq] at again
    have firstSame := place_injective text.toList again.1
    have lastSame := place_injective text.toList again.2
    rw [← firstSame, ← lastSame]

/-- A literal with a line break in it, and a lone carriage return in front of
`(b)`, which therefore starts the third line. -/
theorem spans_exact_third_line :
    ∃ whole part, read "(a \"x\r\ny\"\r(b))" = .ok whole ∧
      Part part whole ∧ part.span = ⟨⟨2, 0⟩, ⟨2, 2⟩⟩ ∧
      Covers "(a \"x\r\ny\"\r(b))".toList part (10, 12) ∧
      Exact "(a \"x\r\ny\"\r(b))".toList (10, 12) part := by
  let part : Expr :=
    .compound [.atom "b" ⟨⟨2, 1⟩, ⟨2, 1⟩⟩] ⟨⟨2, 0⟩, ⟨2, 2⟩⟩
  obtain ⟨whole, ok, inner⟩ : ∃ whole,
      read "(a \"x\r\ny\"\r(b))" = .ok whole ∧ Part part whole :=
    ⟨_, rfl, .item (.tail _ (.tail _ (.head _))) .whole⟩
  obtain ⟨range, covers, only, holds⟩ := (spans_exact _).2 whole part ok inner
  have same := only 10 12 (by decide)
  rw [← same] at covers holds
  exact ⟨whole, part, ok, inner, rfl, covers, holds⟩

end FormulaEdit.Sexpr
