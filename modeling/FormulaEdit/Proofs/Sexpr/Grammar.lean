import FormulaEdit.Sexpr.Basic

/-!
# The grammar of formula texts

A formula text lays out one compound with white space around it.  The grammar
is stated without positions and without the scanner: `Lays` says which texts
an expression may be written as, `Formula` which texts are formulas.

Between the grammar and the reader stand the lexemes without their places.
`formula_iff_spells` takes the grammar down to them: a text lays out a compound
exactly when it spells the lexemes of the compound in order.
-/

namespace FormulaEdit.Sexpr

/-- An expression without places. -/
inductive Shape where
  | atom (text : String)
  | compound (items : List Shape)

namespace Shape

@[simp] def isAtom : Shape → Bool
  | .atom _ => true
  | .compound _ => false

end Shape

/-! ## Texts of atoms -/

/-- White space and parentheses separate atoms. -/
def Delimits (c : Char) : Prop :=
  Text.isBlank c = true ∨ c = '(' ∨ c = ')'

instance : DecidablePred Delimits := fun c =>
  inferInstanceAs (Decidable (Text.isBlank c = true ∨ c = '(' ∨ c = ')'))

/-- White space. -/
def Blank (text : List Char) : Prop := ∀ c ∈ text, Text.isBlank c = true

instance : DecidablePred Blank := fun text =>
  List.decidableBAll (fun c => Text.isBlank c = true) text

/-- What may stand between the quotes of a literal: backslash pairs and
characters other than a quote and a backslash. -/
inductive LiteralBody : List Char → Prop where
  | nil : LiteralBody []
  | pair (c : Char) {rest : List Char} :
      LiteralBody rest → LiteralBody ('\\' :: c :: rest)
  | plain {c : Char} {rest : List Char} :
      c ≠ '"' → c ≠ '\\' → LiteralBody rest → LiteralBody (c :: rest)

/-- A unit of an atom: a backslash pair, a literal or an ordinary character. -/
inductive AtomUnit : List Char → Prop where
  | pair (c : Char) : AtomUnit ['\\', c]
  | literal {body : List Char} :
      LiteralBody body → AtomUnit ('"' :: body ++ ['"'])
  | plain {c : Char} :
      ¬Delimits c → c ≠ '"' → c ≠ '\\' → AtomUnit [c]

/-- Any number of units. -/
inductive Units : List Char → Prop where
  | nil : Units []
  | cons {first rest : List Char} :
      AtomUnit first → Units rest → Units (first ++ rest)

/-! ## Texts of expressions -/

mutual

/-- The texts that an expression may be written as. -/
inductive Lays : Shape → List Char → Prop where
  | atom {text : List Char} :
      text ≠ [] → Units text → Lays (.atom (String.ofList text)) text
  | compound {items : List Shape} {lead body tail : List Char} :
      Blank lead → LaysItems items body → Blank tail →
      Lays (.compound items) ('(' :: (lead ++ body ++ tail) ++ [')'])

/-- The texts between the parentheses of a compound.  Only two atoms need
white space between them. -/
inductive LaysItems : List Shape → List Char → Prop where
  | nil : LaysItems [] []
  | single {item : Shape} {text : List Char} :
      Lays item text → LaysItems [item] text
  | cons {item next : Shape} {items : List Shape}
      {text gap rest : List Char} :
      Lays item text → Blank gap →
      (item.isAtom = true → next.isAtom = true → gap ≠ []) →
      LaysItems (next :: items) rest →
      LaysItems (item :: next :: items) (text ++ gap ++ rest)

end

/-- A text that lays out a compound with white space around it. -/
def Formula (shape : Shape) (text : List Char) : Prop :=
  ∃ items lead body tail, shape = .compound items ∧ Blank lead ∧
    Lays shape body ∧ Blank tail ∧ text = lead ++ body ++ tail

/-! ## Spelling lexemes -/

/-- A lexeme without its place. -/
inductive Token where
  | opening
  | closing
  | atom (text : String)
  deriving DecidableEq

/-- The text does not go on with an atom. -/
def Ends : List Char → Prop
  | [] => True
  | c :: _ => Delimits c

/-- The texts that spell a list of lexemes.  An atom is as long as it can
be. -/
inductive Spells : List Token → List Char → Prop where
  | nil : Spells [] []
  | blank {c : Char} {tokens : List Token} {rest : List Char} :
      Text.isBlank c = true → Spells tokens rest → Spells tokens (c :: rest)
  | opening {tokens : List Token} {rest : List Char} :
      Spells tokens rest → Spells (.opening :: tokens) ('(' :: rest)
  | closing {tokens : List Token} {rest : List Char} :
      Spells tokens rest → Spells (.closing :: tokens) (')' :: rest)
  | atom {text : List Char} {tokens : List Token} {rest : List Char} :
      text ≠ [] → Units text → Ends rest → Spells tokens rest →
      Spells (.atom (String.ofList text) :: tokens) (text ++ rest)

namespace Shape

mutual

/-- The lexemes of an expression. -/
def tokens : Shape → List Token
  | .atom text => [.atom text]
  | .compound items => .opening :: (tokensAll items ++ [.closing])

/-- The lexemes of expressions. -/
def tokensAll : List Shape → List Token
  | [] => []
  | item :: items => tokens item ++ tokensAll items

end

end Shape

/-! ## From the grammar to lexemes -/

theorem blank_nil : Blank [] := by simp [Blank]

theorem Blank.append {before after : List Char} (first : Blank before)
    (second : Blank after) : Blank (before ++ after) :=
  List.forall_mem_append.mpr ⟨first, second⟩

theorem delimits_of_blank {c : Char} (blank : Text.isBlank c = true) :
    Delimits c :=
  .inl blank

theorem Units.head {c : Char} {rest : List Char} (units : Units (c :: rest)) :
    ¬Delimits c := by
  generalize whole : c :: rest = text at units
  cases units with
  | nil => cases whole
  | cons first _ =>
      cases first with
      | pair =>
          cases whole
          decide
      | literal =>
          cases whole
          decide
      | plain ordinary =>
          cases whole
          exact ordinary

theorem Ends.append_blank {gap rest : List Char} (blank : Blank gap)
    (ends : Ends rest) : Ends (gap ++ rest) := by
  cases gap with
  | nil => exact ends
  | cons c gap => exact delimits_of_blank (blank c List.mem_cons_self)

theorem Spells.append_blank {gap rest : List Char} {tokens : List Token}
    (blank : Blank gap) (spells : Spells tokens rest) :
    Spells tokens (gap ++ rest) := by
  induction gap with
  | nil => exact spells
  | cons c gap induction =>
      obtain ⟨head, tail⟩ := List.forall_mem_cons.mp blank
      exact .blank head (induction tail)

theorem Lays.ends_append {shape : Shape} {text : List Char}
    (lays : Lays shape text) (compound : shape.isAtom = false)
    (rest : List Char) : Ends (text ++ rest) := by
  cases lays with
  | atom => cases compound
  | compound => exact .inr (.inl rfl)

theorem LaysItems.ends_append {next : Shape} {items : List Shape}
    {text : List Char} (lays : LaysItems (next :: items) text)
    (compound : next.isAtom = false) (rest : List Char) :
    Ends (text ++ rest) := by
  cases lays with
  | single item => exact item.ends_append compound rest
  | cons item _ _ _ =>
      rw [List.append_assoc, List.append_assoc]
      exact item.ends_append compound _

mutual

theorem Lays.spells {shape : Shape} {text rest : List Char}
    {tokens : List Token} (lays : Lays shape text)
    (ends : shape.isAtom = true → Ends rest) (spells : Spells tokens rest) :
    Spells (shape.tokens ++ tokens) (text ++ rest) := by
  cases lays with
  | atom nonempty units =>
      exact .atom nonempty units (ends rfl) spells
  | compound leadBlank body tailBlank =>
      simp only [Shape.tokens, List.cons_append, List.append_assoc,
        List.nil_append]
      refine .opening (Spells.append_blank leadBlank (body.spells ?_ ?_))
      · exact Ends.append_blank tailBlank (.inr (.inr rfl))
      · exact Spells.append_blank tailBlank (.closing spells)

theorem LaysItems.spells {items : List Shape} {text rest : List Char}
    {tokens : List Token} (lays : LaysItems items text) (ends : Ends rest)
    (spells : Spells tokens rest) :
    Spells (Shape.tokensAll items ++ tokens) (text ++ rest) := by
  cases lays with
  | nil => exact spells
  | single item =>
      simp only [Shape.tokensAll, List.append_nil]
      exact item.spells (fun _ => ends) spells
  | @cons item next _ _ gap others first gapBlank apart later =>
      rw [Shape.tokensAll, List.append_assoc, List.append_assoc,
        List.append_assoc]
      refine first.spells ?_ (Spells.append_blank gapBlank
        (later.spells ends spells))
      intro atom
      cases nextAtom : next.isAtom with
      | true =>
          obtain ⟨c, gap, rfl⟩ :=
            List.exists_cons_of_ne_nil (apart atom nextAtom)
          exact delimits_of_blank (gapBlank c List.mem_cons_self)
      | false =>
          exact Ends.append_blank gapBlank (later.ends_append nextAtom rest)

end

/-! ## From lexemes to the grammar -/

/-- The texts that spell lexemes with no white space before the first. -/
def SpellsAtOnce : List Token → List Char → Prop
  | [], text => text = []
  | .opening :: tokens, text => ∃ rest, text = '(' :: rest ∧ Spells tokens rest
  | .closing :: tokens, text => ∃ rest, text = ')' :: rest ∧ Spells tokens rest
  | .atom name :: tokens, text =>
      ∃ word rest, name = String.ofList word ∧ word ≠ [] ∧ Units word ∧
        Ends rest ∧ text = word ++ rest ∧ Spells tokens rest

theorem Spells.exists_lead {tokens : List Token} {text : List Char}
    (spells : Spells tokens text) :
    ∃ lead rest, Blank lead ∧ text = lead ++ rest ∧
      SpellsAtOnce tokens rest := by
  induction spells with
  | nil => exact ⟨[], [], blank_nil, rfl, rfl⟩
  | @blank c _ _ blank _ induction =>
      obtain ⟨lead, rest, leadBlank, rfl, atOnce⟩ := induction
      exact ⟨c :: lead, rest, List.forall_mem_cons.mpr ⟨blank, leadBlank⟩,
        rfl, atOnce⟩
  | opening later => exact ⟨[], _, blank_nil, rfl, _, rfl, later⟩
  | closing later => exact ⟨[], _, blank_nil, rfl, _, rfl, later⟩
  | atom nonempty units ends later =>
      exact ⟨[], _, blank_nil, rfl, _, _, rfl, nonempty, units, ends, rfl,
        later⟩

theorem LaysItems.not_ends {next : Shape} {items : List Shape}
    {text : List Char} (lays : LaysItems (next :: items) text)
    (atom : next.isAtom = true) (rest : List Char) :
    ¬Ends (text ++ rest) := by
  have starts : ∀ {first : List Char}, Lays next first → ∀ rest,
      ¬Ends (first ++ rest) := by
    intro first firstLays rest
    cases firstLays with
    | compound => cases atom
    | atom nonempty units =>
        obtain ⟨c, word, rfl⟩ := List.exists_cons_of_ne_nil nonempty
        exact units.head
  cases lays with
  | single item => exact starts item rest
  | cons item _ _ _ =>
      rw [List.append_assoc, List.append_assoc]
      exact starts item _

mutual

/-- A text that spells the lexemes of an expression and others lays out the
expression first. -/
theorem Spells.exists_lays (shape : Shape) {tokens : List Token}
    {text : List Char} (spells : Spells (shape.tokens ++ tokens) text) :
    ∃ lead body rest, Blank lead ∧ Lays shape body ∧
      text = lead ++ body ++ rest ∧ Spells tokens rest ∧
      (shape.isAtom = true → Ends rest) := by
  match shape with
  | .atom name =>
      obtain ⟨lead, _, leadBlank, rfl, word, rest, rfl, nonempty, units, ends,
        rfl, later⟩ := spells.exists_lead
      exact ⟨lead, word, rest, leadBlank, .atom nonempty units,
        (List.append_assoc ..).symm, later, fun _ => ends⟩
  | .compound items =>
      rw [Shape.tokens, List.cons_append, List.append_assoc] at spells
      obtain ⟨lead, _, leadBlank, rfl, inside, rfl, insideSpells⟩ :=
        spells.exists_lead
      obtain ⟨first, body, tail, rest, firstBlank, bodyLays, tailBlank, rfl,
        later⟩ := Spells.exists_laysItems items insideSpells
      refine ⟨lead, _, rest, leadBlank,
        .compound firstBlank bodyLays tailBlank, ?_, later, by simp⟩
      simp

theorem Spells.exists_laysItems (items : List Shape) {tokens : List Token}
    {text : List Char}
    (spells : Spells (Shape.tokensAll items ++ .closing :: tokens) text) :
    ∃ lead body tail rest, Blank lead ∧ LaysItems items body ∧ Blank tail ∧
      text = lead ++ body ++ tail ++ ')' :: rest ∧ Spells tokens rest := by
  match items with
  | [] =>
      obtain ⟨lead, _, leadBlank, rfl, rest, rfl, later⟩ := spells.exists_lead
      exact ⟨lead, [], [], rest, leadBlank, .nil, blank_nil, by simp, later⟩
  | item :: items =>
      rw [Shape.tokensAll, List.append_assoc] at spells
      obtain ⟨lead, first, after, leadBlank, firstLays, rfl, afterSpells,
        ends⟩ := Spells.exists_lays item spells
      obtain ⟨gap, body, tail, rest, gapBlank, bodyLays, tailBlank, rfl,
        later⟩ := Spells.exists_laysItems items afterSpells
      cases items with
      | nil =>
          cases bodyLays
          exact ⟨lead, first, gap ++ tail, rest, leadBlank,
            .single firstLays, gapBlank.append tailBlank, by simp, later⟩
      | cons next items =>
          refine ⟨lead, first ++ gap ++ body, tail, rest, leadBlank,
            .cons firstLays gapBlank ?_ bodyLays, tailBlank, by simp, later⟩
          rintro itemAtom nextAtom rfl
          have touching := ends itemAtom
          rw [List.nil_append, List.append_assoc] at touching
          exact bodyLays.not_ends nextAtom _ touching

end

theorem spells_nil_iff {text : List Char} : Spells [] text ↔ Blank text := by
  constructor
  · intro spells
    obtain ⟨lead, _, blank, rfl, rfl⟩ := spells.exists_lead
    simpa using blank
  · intro blank
    simpa using Spells.append_blank blank .nil

/-- A text is a formula exactly when it spells the lexemes of a compound. -/
theorem formula_iff_spells {shape : Shape} {text : List Char} :
    Formula shape text ↔
      shape.isAtom = false ∧ Spells shape.tokens text := by
  constructor
  · rintro ⟨items, lead, body, tail, rfl, leadBlank, lays, tailBlank, rfl⟩
    have spells := lays.spells (by simp) (spells_nil_iff.mpr tailBlank)
    rw [List.append_nil] at spells
    rw [List.append_assoc]
    exact ⟨rfl, Spells.append_blank leadBlank spells⟩
  · rintro ⟨compound, spells⟩
    cases shape with
    | atom => cases compound
    | compound items =>
        rw [← List.append_nil (Shape.tokens _)] at spells
        obtain ⟨lead, body, tail, leadBlank, lays, rfl, rest, _⟩ :=
          Spells.exists_lays _ spells
        exact ⟨items, lead, body, tail, rfl, leadBlank, lays,
          spells_nil_iff.mp rest, rfl⟩

end FormulaEdit.Sexpr
