import FormulaEdit.Proofs.Result
import FormulaEdit.Proofs.Sexpr.Grammar

/-!
# Scanning spells lexemes

The scanner looks at one character at a time.  `Continues` says what has to
follow from where it stands; each step keeps this, so that a scan from the
start finds exactly the lexemes that the text spells.
-/

namespace FormulaEdit.Sexpr

/-- A lexeme without its place. -/
def Lexeme.token : Lexeme → Token
  | .opening _ => .opening
  | .closing _ => .closing
  | .atom text _ => .atom text

theorem isDelimiter_iff {c : Char} :
    Mode.isDelimiter c = true ↔ Delimits c := by
  simp [Mode.isDelimiter, Delimits, or_assoc]

/-! ## What may follow -/

/-- What may follow inside an atom.  As in the scanner, the last character so
far comes first. -/
def ContinuesAtom (sofar : List Char) (tokens : List Token)
    (text : List Char) : Prop :=
  ∃ more rest later,
    tokens = .atom (String.ofList (sofar.reverse ++ more)) :: later ∧
    text = more ++ rest ∧ Units more ∧ Ends rest ∧ Spells later rest

/-- What may follow inside a literal. -/
def ContinuesLiteral (sofar : List Char) (tokens : List Token)
    (text : List Char) : Prop :=
  ∃ body rest, text = body ++ '"' :: rest ∧ LiteralBody body ∧
    ContinuesAtom ('"' :: (body.reverse ++ sofar)) tokens rest

/-- What may follow from where the scanner stands. -/
def Continues : Mode → List Token → List Char → Prop
  | .gap, tokens, text => Spells tokens text
  | .atom _ _ sofar, tokens, text => ContinuesAtom sofar tokens text
  | .atomEscape _ _ sofar, tokens, text =>
      ∃ c rest, text = c :: rest ∧ ContinuesAtom (c :: sofar) tokens rest
  | .literal _ _ sofar, tokens, text => ContinuesLiteral sofar tokens text
  | .literalEscape _ _ sofar, tokens, text =>
      ∃ c rest, text = c :: rest ∧ ContinuesLiteral (c :: sofar) tokens rest

/-! ## Inside an atom -/

theorem units_cons_iff {c : Char} {text : List Char} :
    Units (c :: text) ↔
      c = '\\' ∧ (∃ d rest, text = d :: rest ∧ Units rest) ∨
      c = '"' ∧ (∃ body rest, text = body ++ '"' :: rest ∧
        LiteralBody body ∧ Units rest) ∨
      (¬Delimits c ∧ c ≠ '"' ∧ c ≠ '\\') ∧ Units text := by
  constructor
  · intro units
    generalize whole : c :: text = all at units
    cases units with
    | nil => cases whole
    | cons first later =>
        cases first with
        | pair d =>
            cases whole
            exact .inl ⟨rfl, d, _, rfl, later⟩
        | literal body =>
            cases whole
            exact .inr (.inl ⟨rfl, _, _, by simp, body, later⟩)
        | plain ordinary noQuote noSlash =>
            cases whole
            exact .inr (.inr ⟨⟨ordinary, noQuote, noSlash⟩, later⟩)
  · rintro (⟨rfl, d, rest, rfl, later⟩ | ⟨rfl, body, rest, rfl, inside, later⟩
      | ⟨⟨ordinary, noQuote, noSlash⟩, later⟩)
    · exact .cons (.pair d) later
    · simpa using Units.cons (.literal inside) later
    · exact .cons (.plain ordinary noQuote noSlash) later

theorem continuesAtom_delimiter {sofar : List Char} {tokens : List Token}
    {c : Char} {text : List Char} (delimits : Delimits c) :
    ContinuesAtom sofar tokens (c :: text) ↔
      ∃ later, tokens = .atom (String.ofList sofar.reverse) :: later ∧
        Spells later (c :: text) := by
  constructor
  · rintro ⟨more, rest, later, rfl, whole, units, _, spells⟩
    cases more with
    | nil =>
        obtain rfl : c :: text = rest := whole
        exact ⟨later, by simp, spells⟩
    | cons d more =>
        cases whole
        exact absurd delimits units.head
  · rintro ⟨later, rfl, spells⟩
    exact ⟨[], _, later, by simp, rfl, .nil, delimits, spells⟩

theorem continuesAtom_cons {sofar : List Char} {tokens : List Token}
    {c : Char} {text : List Char} (ordinary : ¬Delimits c) :
    ContinuesAtom sofar tokens (c :: text) ↔
      ∃ more rest later,
        tokens = .atom (String.ofList (sofar.reverse ++ c :: more)) :: later ∧
        text = more ++ rest ∧ Units (c :: more) ∧ Ends rest ∧
        Spells later rest := by
  constructor
  · rintro ⟨more, rest, later, rfl, whole, units, ends, spells⟩
    cases more with
    | nil =>
        obtain rfl : c :: text = rest := whole
        exact absurd ends ordinary
    | cons d more =>
        cases whole
        exact ⟨more, rest, later, rfl, rfl, units, ends, spells⟩
  · rintro ⟨more, rest, later, rfl, rfl, units, ends, spells⟩
    exact ⟨c :: more, rest, later, rfl, rfl, units, ends, spells⟩

theorem continuesAtom_extend {sofar : List Char} {tokens : List Token}
    {c : Char} {text : List Char} (start position : Position)
    (ordinary : ¬Delimits c) :
    ContinuesAtom sofar tokens (c :: text) ↔
      Continues (Mode.extend start position sofar c) tokens text := by
  rw [continuesAtom_cons ordinary, Mode.extend]
  by_cases quote : c = '"'
  · subst quote
    simp only [if_true, Continues]
    constructor
    · rintro ⟨more, rest, later, rfl, rfl, units, ends, spells⟩
      rcases units_cons_iff.mp units with
        ⟨slash, _⟩ | ⟨_, body, inner, rfl, inside, units⟩ | ⟨⟨_, no, _⟩, _⟩
      · cases slash
      · exact ⟨body, inner ++ rest, by simp, inside, inner, rest, later,
          by simp, rfl, units, ends, spells⟩
      · exact absurd rfl no
    · rintro ⟨body, _, rfl, inside, inner, rest, later, rfl, rfl, units, ends,
        spells⟩
      exact ⟨body ++ '"' :: inner, rest, later, by simp, by simp,
        units_cons_iff.mpr (.inr (.inl ⟨rfl, body, inner, rfl, inside, units⟩)),
        ends, spells⟩
  · by_cases slash : c = '\\'
    · subst slash
      simp only [quote, if_false, if_true, Continues]
      constructor
      · rintro ⟨more, rest, later, rfl, rfl, units, ends, spells⟩
        rcases units_cons_iff.mp units with
          ⟨_, d, inner, rfl, innerUnits⟩ | ⟨no, _⟩ | ⟨⟨_, _, no⟩, _⟩
        · exact ⟨d, inner ++ rest, rfl, inner, rest, later, by simp, rfl,
            innerUnits, ends, spells⟩
        · exact absurd no quote
        · exact absurd rfl no
      · rintro ⟨d, _, rfl, inner, rest, later, rfl, rfl, units, ends, spells⟩
        exact ⟨d :: inner, rest, later, by simp, rfl,
          units_cons_iff.mpr (.inl ⟨rfl, d, inner, rfl, units⟩), ends, spells⟩
    · simp only [quote, slash, if_false, Continues]
      constructor
      · rintro ⟨more, rest, later, rfl, rfl, units, ends, spells⟩
        rcases units_cons_iff.mp units with ⟨no, _⟩ | ⟨no, _⟩ | ⟨_, units⟩
        · exact absurd no slash
        · exact absurd no quote
        · exact ⟨more, rest, later, by simp, rfl, units, ends, spells⟩
      · rintro ⟨more, rest, later, rfl, rfl, units, ends, spells⟩
        exact ⟨more, rest, later, by simp, rfl,
          units_cons_iff.mpr (.inr (.inr ⟨⟨ordinary, quote, slash⟩, units⟩)),
          ends, spells⟩

/-! ## Inside a literal -/

theorem literalBody_cons_iff {c : Char} {text : List Char} :
    LiteralBody (c :: text) ↔
      c = '\\' ∧ (∃ d rest, text = d :: rest ∧ LiteralBody rest) ∨
      (c ≠ '"' ∧ c ≠ '\\') ∧ LiteralBody text := by
  constructor
  · intro body
    cases body with
    | pair d rest => exact .inl ⟨rfl, d, _, rfl, rest⟩
    | plain noQuote noSlash rest => exact .inr ⟨⟨noQuote, noSlash⟩, rest⟩
  · rintro (⟨rfl, d, rest, rfl, body⟩ | ⟨⟨noQuote, noSlash⟩, body⟩)
    · exact .pair d body
    · exact .plain noQuote noSlash body

theorem continuesLiteral_quote {sofar : List Char} {tokens : List Token}
    {text : List Char} :
    ContinuesLiteral sofar tokens ('"' :: text) ↔
      ContinuesAtom ('"' :: sofar) tokens text := by
  constructor
  · rintro ⟨body, rest, whole, inside, continues⟩
    cases body with
    | nil =>
        cases whole
        exact continues
    | cons d body =>
        cases whole
        rcases literalBody_cons_iff.mp inside with ⟨no, _⟩ | ⟨⟨no, _⟩, _⟩
        · cases no
        · exact absurd rfl no
  · intro continues
    exact ⟨[], text, rfl, .nil, continues⟩

theorem continuesLiteral_cons {sofar : List Char} {tokens : List Token}
    {c : Char} {text : List Char} (noQuote : c ≠ '"') :
    ContinuesLiteral sofar tokens (c :: text) ↔
      ∃ body rest, text = body ++ '"' :: rest ∧ LiteralBody (c :: body) ∧
        ContinuesAtom ('"' :: (body.reverse ++ c :: sofar)) tokens rest := by
  constructor
  · rintro ⟨body, rest, whole, inside, continues⟩
    cases body with
    | nil =>
        cases whole
        exact absurd rfl noQuote
    | cons d body =>
        cases whole
        exact ⟨body, rest, rfl, inside, by simpa using continues⟩
  · rintro ⟨body, rest, rfl, inside, continues⟩
    exact ⟨c :: body, rest, rfl, inside, by simpa using continues⟩

theorem continuesLiteral_slash {sofar : List Char} {tokens : List Token}
    {text : List Char} :
    ContinuesLiteral sofar tokens ('\\' :: text) ↔
      ∃ c rest, text = c :: rest ∧
        ContinuesLiteral (c :: '\\' :: sofar) tokens rest := by
  rw [continuesLiteral_cons (by decide)]
  constructor
  · rintro ⟨body, rest, rfl, inside, continues⟩
    rcases literalBody_cons_iff.mp inside with
      ⟨_, c, inner, rfl, innerBody⟩ | ⟨⟨_, no⟩, _⟩
    · exact ⟨c, inner ++ '"' :: rest, rfl, inner, rest, rfl, innerBody,
        by simpa using continues⟩
    · exact absurd rfl no
  · rintro ⟨c, _, rfl, inner, rest, rfl, inside, continues⟩
    exact ⟨c :: inner, rest, rfl, .pair c inside, by simpa using continues⟩

theorem continuesLiteral_plain {sofar : List Char} {tokens : List Token}
    {c : Char} {text : List Char} (noQuote : c ≠ '"') (noSlash : c ≠ '\\') :
    ContinuesLiteral sofar tokens (c :: text) ↔
      ContinuesLiteral (c :: sofar) tokens text := by
  rw [continuesLiteral_cons noQuote]
  constructor
  · rintro ⟨body, rest, rfl, inside, continues⟩
    rcases literalBody_cons_iff.mp inside with ⟨no, _⟩ | ⟨_, inside⟩
    · exact absurd no noSlash
    · exact ⟨body, rest, rfl, inside, continues⟩
  · rintro ⟨body, rest, rfl, inside, continues⟩
    exact ⟨body, rest, rfl, .plain noQuote noSlash inside, continues⟩

/-! ## Between atoms -/

theorem spells_blank {tokens : List Token} {c : Char} {text : List Char}
    (blank : Text.isBlank c = true) :
    Spells tokens (c :: text) ↔ Spells tokens text := by
  constructor
  · intro spells
    generalize whole : c :: text = all at spells
    cases spells with
    | nil => cases whole
    | blank _ later =>
        cases whole
        exact later
    | opening =>
        cases whole
        exact absurd blank (by decide)
    | closing =>
        cases whole
        exact absurd blank (by decide)
    | atom nonempty units =>
        obtain ⟨d, word, rfl⟩ := List.exists_cons_of_ne_nil nonempty
        cases whole
        exact absurd (delimits_of_blank blank) units.head
  · exact .blank blank

theorem spells_iff_atOnce {tokens : List Token} {c : Char} {text : List Char}
    (ink : Text.isBlank c = false) :
    Spells tokens (c :: text) ↔ SpellsAtOnce tokens (c :: text) := by
  constructor
  · intro spells
    obtain ⟨lead, rest, blank, whole, atOnce⟩ := spells.exists_lead
    cases lead with
    | nil =>
        obtain rfl : c :: text = rest := whole
        exact atOnce
    | cons d lead =>
        cases whole
        rw [blank c List.mem_cons_self] at ink
        cases ink
  · intro atOnce
    match tokens, atOnce with
    | .opening :: _, ⟨rest, whole, later⟩ =>
        cases whole
        exact .opening later
    | .closing :: _, ⟨rest, whole, later⟩ =>
        cases whole
        exact .closing later
    | .atom _ :: _, ⟨word, rest, name, nonempty, units, ends, whole, later⟩ =>
        rw [name, whole]
        exact .atom nonempty units ends later

/-- No atom starts with a delimiter, so a parenthesis is a lexeme. -/
theorem spellsAtOnce_delimiter {tokens : List Token} {c : Char}
    {text : List Char} (delimits : Delimits c) :
    SpellsAtOnce tokens (c :: text) ↔
      c = '(' ∧ (∃ later, tokens = .opening :: later ∧ Spells later text) ∨
      c = ')' ∧ (∃ later, tokens = .closing :: later ∧ Spells later text) := by
  constructor
  · intro atOnce
    match tokens, atOnce with
    | .opening :: later, ⟨_, whole, spells⟩ =>
        cases whole
        exact .inl ⟨rfl, later, rfl, spells⟩
    | .closing :: later, ⟨_, whole, spells⟩ =>
        cases whole
        exact .inr ⟨rfl, later, rfl, spells⟩
    | .atom _ :: _, ⟨word, _, _, nonempty, units, _, whole, _⟩ =>
        obtain ⟨d, word, rfl⟩ := List.exists_cons_of_ne_nil nonempty
        cases whole
        exact absurd delimits units.head
  · rintro (⟨rfl, later, rfl, spells⟩ | ⟨rfl, later, rfl, spells⟩)
    · exact ⟨text, rfl, spells⟩
    · exact ⟨text, rfl, spells⟩

theorem spells_opening {tokens : List Token} {text : List Char} :
    Spells tokens ('(' :: text) ↔
      ∃ later, tokens = .opening :: later ∧ Spells later text := by
  rw [spells_iff_atOnce (by decide), spellsAtOnce_delimiter (by decide)]
  simp

theorem spells_closing {tokens : List Token} {text : List Char} :
    Spells tokens (')' :: text) ↔
      ∃ later, tokens = .closing :: later ∧ Spells later text := by
  rw [spells_iff_atOnce (by decide), spellsAtOnce_delimiter (by decide)]
  simp

theorem spells_ordinary {tokens : List Token} {c : Char} {text : List Char}
    (ordinary : ¬Delimits c) :
    Spells tokens (c :: text) ↔ ContinuesAtom [] tokens (c :: text) := by
  have ink : Text.isBlank c = false := by
    simpa using fun blank => ordinary (delimits_of_blank blank)
  rw [spells_iff_atOnce ink]
  constructor
  · intro atOnce
    match tokens, atOnce with
    | .opening :: _, ⟨_, whole, _⟩ =>
        cases whole
        exact absurd (by decide) ordinary
    | .closing :: _, ⟨_, whole, _⟩ =>
        cases whole
        exact absurd (by decide) ordinary
    | .atom _ :: later, ⟨word, rest, name, _, units, ends, whole, spells⟩ =>
        exact ⟨word, rest, later, by rw [name]; rfl, whole, units, ends,
          spells⟩
  · rintro ⟨word, rest, later, rfl, whole, units, ends, spells⟩
    refine ⟨word, rest, rfl, ?_, units, ends, whole, spells⟩
    rintro rfl
    obtain rfl : c :: text = rest := whole
    exact ordinary ends

/-! ## Steps and scans -/

theorem continues_outside {tokens : List Token} {c : Char} {text : List Char}
    (position : Position) :
    Spells tokens (c :: text) ↔
      ∃ later, tokens =
          (Mode.outside position c).1.map Lexeme.token ++ later ∧
        Continues (Mode.outside position c).2 later text := by
  unfold Mode.outside
  by_cases blank : Text.isBlank c = true
  · simp [blank, spells_blank blank, Continues]
  · by_cases opening : c = '('
    · subst opening
      simp [blank, spells_opening, Continues, Lexeme.token]
    · by_cases closing : c = ')'
      · subst closing
        simp [blank, spells_closing, Continues, Lexeme.token]
      · have ordinary : ¬Delimits c := by
          simp [Delimits, blank, opening, closing]
        simp [blank, opening, closing, spells_ordinary ordinary,
          continuesAtom_extend position position ordinary]

/-- What may follow before a character is what it completes and what may
follow behind it. -/
theorem continues_step {mode : Mode} {tokens : List Token} {c : Char}
    {text : List Char} (position : Position) :
    Continues mode tokens (c :: text) ↔
      ∃ later, tokens = (mode.step position c).1.map Lexeme.token ++ later ∧
        Continues (mode.step position c).2 later text := by
  cases mode with
  | gap => exact continues_outside position
  | atom start last sofar =>
      by_cases delimits : Delimits c
      · simp only [Continues, continuesAtom_delimiter delimits, Mode.step,
          isDelimiter_iff.mpr delimits, if_true, continues_outside position]
        constructor
        · rintro ⟨_, rfl, later, rfl, continues⟩
          exact ⟨later, rfl, continues⟩
        · rintro ⟨later, rfl, continues⟩
          exact ⟨_, rfl, later, rfl, continues⟩
      · have inside : Mode.isDelimiter c = false := by
          simpa using fun is => delimits (isDelimiter_iff.mp is)
        simp [Mode.step, inside, Continues,
          continuesAtom_extend start position delimits]
  | atomEscape start slash sofar =>
      simp only [Continues, Mode.step, List.map_nil, List.nil_append,
        exists_eq_left']
      constructor
      · rintro ⟨_, _, same, continues⟩
        cases same
        exact continues
      · intro continues
        exact ⟨c, text, rfl, continues⟩
  | literal start quote sofar =>
      by_cases closes : c = '"'
      · subst closes
        simp [Mode.step, Continues, continuesLiteral_quote]
      · by_cases slash : c = '\\'
        · subst slash
          simp [Mode.step, Continues, continuesLiteral_slash]
        · simp [Mode.step, Continues, closes, slash,
            continuesLiteral_plain closes slash]
  | literalEscape start quote sofar =>
      simp only [Continues, Mode.step, List.map_nil, List.nil_append,
        exists_eq_left']
      constructor
      · rintro ⟨_, _, same, continues⟩
        cases same
        exact continues
      · intro continues
        exact ⟨c, text, rfl, continues⟩

theorem finish_append (made later : List Lexeme) (mode : Mode) :
    finish (made ++ later) mode = (finish later mode).map (made ++ ·) := by
  cases mode <;> simp [finish, Except.map]

theorem spells_empty_iff {tokens : List Token} :
    Spells tokens [] ↔ tokens = [] := by
  constructor
  · intro spells
    obtain ⟨lead, rest, _, whole, atOnce⟩ := spells.exists_lead
    obtain ⟨rfl, rfl⟩ := List.append_eq_nil_iff.mp whole.symm
    match tokens, atOnce with
    | [], _ => rfl
    | .atom _ :: _, ⟨word, _, _, nonempty, _, _, whole, _⟩ =>
        exact absurd (List.append_eq_nil_iff.mp whole.symm).1 nonempty
  · rintro rfl
    exact .nil

theorem continues_nil {mode : Mode} {tokens : List Token} :
    Continues mode tokens [] ↔
      ∃ lexemes, finish [] mode = .ok lexemes ∧
        lexemes.map Lexeme.token = tokens := by
  cases mode with
  | gap =>
      simp only [Continues, finish, Except.ok.injEq, exists_eq_left',
        List.map_nil, spells_empty_iff]
      exact eq_comm
  | atom start last sofar =>
      simp only [Continues, finish, List.nil_append, Except.ok.injEq,
        exists_eq_left', List.map_cons, List.map_nil, Mode.atomLexeme,
        Lexeme.token]
      constructor
      · rintro ⟨more, rest, later, rfl, whole, _, _, spells⟩
        obtain ⟨rfl, rfl⟩ := List.append_eq_nil_iff.mp whole.symm
        obtain rfl := spells_empty_iff.mp spells
        simp
      · rintro rfl
        exact ⟨[], [], [], by simp, rfl, .nil, trivial, .nil⟩
  | atomEscape start slash sofar => simp [Continues, finish]
  | literal start quote sofar => simp [Continues, ContinuesLiteral, finish]
  | literalEscape start quote sofar => simp [Continues, finish]

theorem finish_scan {mode : Mode} {position : Position} {text : List Char}
    {tokens : List Token} :
    (∃ lexemes, finish (scan mode position text).1
        (scan mode position text).2 = .ok lexemes ∧
      lexemes.map Lexeme.token = tokens) ↔ Continues mode tokens text := by
  induction text generalizing mode position tokens with
  | nil => exact continues_nil.symm
  | cons c text induction =>
      rw [continues_step position]
      simp only [← @induction _ (position.next c text), scan, finish_append,
        Result.map_eq_ok_iff]
      constructor
      · rintro ⟨_, ⟨later, finished, rfl⟩, rfl⟩
        exact ⟨_, List.map_append, later, finished, rfl⟩
      · rintro ⟨_, rfl, later, finished, rfl⟩
        exact ⟨_, ⟨later, finished, rfl⟩, List.map_append⟩

/-- A text splits into lexemes exactly when it spells them. -/
theorem lexemes_eq_ok_iff {text : List Char} {tokens : List Token} :
    (∃ found, lexemes text = .ok found ∧
      found.map Lexeme.token = tokens) ↔ Spells tokens text :=
  finish_scan

theorem Spells.tokens_eq {first second : List Token} {text : List Char}
    (one : Spells first text) (other : Spells second text) :
    first = second := by
  obtain ⟨found, split, rfl⟩ := lexemes_eq_ok_iff.mpr one
  obtain ⟨again, splitAgain, rfl⟩ := lexemes_eq_ok_iff.mpr other
  rw [split] at splitAgain
  cases splitAgain
  rfl

end FormulaEdit.Sexpr
