import FormulaEdit.Arena.Build
import FormulaEdit.Proofs.Sexpr.Scanning

/-!
# Reading follows the grammar

Putting lexemes together inverts taking an expression apart: what is read has
the lexemes that were there, and the lexemes of a compound are always read.
With the scanner this gives the main statement, `read_iff_formula`: reading
accepts exactly the formula texts and gives the expression that they lay out.
-/

namespace FormulaEdit.Sexpr

namespace Expr

mutual

/-- An expression without its places. -/
def shape : Expr → Shape
  | .atom text _ => .atom text
  | .compound items _ => .compound (shapes items)

/-- Expressions without their places. -/
def shapes : List Expr → List Shape
  | [] => []
  | item :: items => shape item :: shapes items

end

theorem shapes_eq_map (items : List Expr) :
    shapes items = items.map shape := by
  induction items with
  | nil => rfl
  | cons item items induction => rw [shapes, induction, List.map_cons]

end Expr

theorem Shape.tokensAll_append (before after : List Shape) :
    Shape.tokensAll (before ++ after) =
      Shape.tokensAll before ++ Shape.tokensAll after := by
  induction before with
  | nil => rfl
  | cons item before induction =>
      simp only [List.cons_append, tokensAll, induction, List.append_assoc]

/-! ## What is read was there -/

namespace Expr

mutual

/-- The lexemes of an expression, each in its place. -/
def lexemes : Expr → List Lexeme
  | .atom text span => [.atom text span]
  | .compound items span =>
      .opening span.first :: (lexemesAll items ++ [.closing span.last])

/-- The lexemes of expressions, each in its place. -/
def lexemesAll : List Expr → List Lexeme
  | [] => []
  | item :: items => lexemes item ++ lexemesAll items

end

theorem lexemesAll_append (before after : List Expr) :
    lexemesAll (before ++ after) = lexemesAll before ++ lexemesAll after := by
  induction before with
  | nil => rfl
  | cons item before induction =>
      simp only [List.cons_append, lexemesAll, induction, List.append_assoc]

mutual

theorem map_token_lexemes (expr : Expr) :
    expr.lexemes.map Lexeme.token = expr.shape.tokens := by
  cases expr with
  | atom text span => rfl
  | compound items span =>
      simp [lexemes, shape, Shape.tokens, Lexeme.token,
        map_token_lexemesAll items]

theorem map_token_lexemesAll (items : List Expr) :
    (lexemesAll items).map Lexeme.token =
      Shape.tokensAll (shapes items) := by
  cases items with
  | nil => rfl
  | cons item items =>
      simp [lexemesAll, shapes, Shape.tokensAll, map_token_lexemes item,
        map_token_lexemesAll items]

end

end Expr

namespace Unclosed

/-- The lexemes of a compound up to its last item so far. -/
def lexemes (compound : Unclosed) : List Lexeme :=
  .opening compound.opening :: Expr.lexemesAll compound.items.reverse

theorem lexemes_push (compound : Unclosed) (item : Expr) :
    (compound.push item).lexemes = compound.lexemes ++ item.lexemes := by
  simp [lexemes, push, Expr.lexemesAll_append, Expr.lexemesAll]

theorem lexemes_close (compound : Unclosed) (closing : Position) :
    (compound.close closing).lexemes =
      compound.lexemes ++ [.closing closing] := by
  simp [lexemes, close, Expr.lexemes]

/-- The lexemes of an unclosed compound and of those around it. -/
def pending : Unclosed → List Unclosed → List Lexeme
  | inner, [] => inner.lexemes
  | inner, next :: outer => pending next outer ++ inner.lexemes

theorem pending_push (inner : Unclosed) (outer : List Unclosed)
    (item : Expr) :
    pending (inner.push item) outer = pending inner outer ++ item.lexemes := by
  cases outer with
  | nil => exact inner.lexemes_push item
  | cons next outer =>
      simp only [pending, lexemes_push, List.append_assoc]

theorem pending_open (inner : Unclosed) (outer : List Unclosed)
    (position : Position) :
    pending ⟨position, []⟩ (inner :: outer) =
      pending inner outer ++ [.opening position] :=
  rfl

theorem pending_close (inner next : Unclosed) (outer : List Unclosed)
    (position : Position) :
    pending (next.push (inner.close position)) outer =
      pending inner (next :: outer) ++ [.closing position] := by
  rw [pending_push, lexemes_close, pending, List.append_assoc]

end Unclosed

/-- Putting lexemes together loses none and invents none. -/
theorem assemble_lexemes {inner : Unclosed} {outer : List Unclosed}
    {found rest : List Lexeme} {expr : Expr}
    (assembled : assemble inner outer found = .ok (expr, rest)) :
    expr.shape.isAtom = false ∧
      Unclosed.pending inner outer ++ found = expr.lexemes ++ rest := by
  fun_induction assemble inner outer found with
  | case1 => cases assembled
  | case2 inner outer position found induction =>
      obtain ⟨compound, same⟩ := induction assembled
      refine ⟨compound, ?_⟩
      rw [← same, Unclosed.pending_open, List.append_assoc,
        List.singleton_append]
  | case3 inner outer text span found induction =>
      obtain ⟨compound, same⟩ := induction assembled
      refine ⟨compound, ?_⟩
      rw [← same, Unclosed.pending_push]
      simp [Expr.lexemes]
  | case4 inner position found =>
      cases assembled
      refine ⟨rfl, ?_⟩
      rw [Unclosed.lexemes_close]
      simp [Unclosed.pending]
  | case5 inner next outer position found induction =>
      obtain ⟨compound, same⟩ := induction assembled
      refine ⟨compound, ?_⟩
      rw [← same, Unclosed.pending_close, List.append_assoc,
        List.singleton_append]

theorem ofLexemes_lexemes {found : List Lexeme} {expr : Expr}
    (ok : ofLexemes found = .ok expr) :
    expr.shape.isAtom = false ∧ found = expr.lexemes := by
  match found with
  | [] => cases ok
  | .closing _ :: _ => cases ok
  | .atom _ _ :: _ => cases ok
  | .opening position :: found =>
      obtain ⟨⟨read, rest⟩, assembled, ended⟩ := Result.bind_eq_ok_iff.mp ok
      obtain ⟨compound, same⟩ := assemble_lexemes assembled
      cases rest with
      | cons extra rest => cases ended
      | nil =>
          cases ended
          refine ⟨compound, ?_⟩
          simpa [Unclosed.pending, Unclosed.lexemes, Expr.lexemesAll]
            using same

/-! ## What is there is read -/

theorem token_eq_closing_iff {lexeme : Lexeme} :
    lexeme.token = .closing ↔ ∃ position, lexeme = .closing position := by
  cases lexeme <;> simp [Lexeme.token]

theorem token_eq_opening_iff {lexeme : Lexeme} :
    lexeme.token = .opening ↔ ∃ position, lexeme = .opening position := by
  cases lexeme <;> simp [Lexeme.token]

theorem exists_parenthesised {items : List Shape} {found : List Lexeme}
    (spelled : found.map Lexeme.token = (Shape.compound items).tokens) :
    ∃ first inside last, found = .opening first :: (inside ++ [.closing last]) ∧
      inside.map Lexeme.token = Shape.tokensAll items := by
  obtain ⟨opening, _, rfl, isOpening, tail⟩ := List.map_eq_cons_iff.mp spelled
  obtain ⟨inside, _, rfl, insideTokens, ending⟩ :=
    List.map_eq_append_iff.mp tail
  obtain ⟨closing, _, rfl, isClosing, nothing⟩ :=
    List.map_eq_cons_iff.mp ending
  obtain ⟨first, rfl⟩ := token_eq_opening_iff.mp isOpening
  obtain ⟨last, rfl⟩ := token_eq_closing_iff.mp isClosing
  obtain rfl := List.map_eq_nil_iff.mp nothing
  exact ⟨first, inside, last, rfl, insideTokens⟩

mutual

theorem assemble_shape (shape : Shape) {found : List Lexeme}
    (spelled : found.map Lexeme.token = shape.tokens) (inner : Unclosed)
    (outer : List Unclosed) (later : List Lexeme) :
    ∃ expr : Expr, expr.shape = shape ∧
      assemble inner outer (found ++ later) =
        assemble (inner.push expr) outer later := by
  match shape with
  | .atom text =>
      obtain ⟨lexeme, _, rfl, isAtom, nothing⟩ :=
        List.map_eq_cons_iff.mp spelled
      obtain rfl := List.map_eq_nil_iff.mp nothing
      cases lexeme with
      | opening => cases isAtom
      | closing => cases isAtom
      | atom text span =>
          cases isAtom
          exact ⟨.atom text span, rfl, rfl⟩
  | .compound items =>
      obtain ⟨first, inside, last, rfl, insideTokens⟩ :=
        exists_parenthesised spelled
      obtain ⟨exprs, rfl, assembled⟩ := assemble_shapes items insideTokens
        ⟨first, []⟩ (inner :: outer) (.closing last :: later)
      refine ⟨.compound exprs ⟨first, last⟩, ?_, ?_⟩
      · rw [Expr.shape, Expr.shapes_eq_map]
      · simp only [List.cons_append, List.append_assoc, List.nil_append,
          assemble, assembled, Unclosed.close, List.append_nil,
          List.reverse_reverse]

theorem assemble_shapes (shapes : List Shape) {found : List Lexeme}
    (spelled : found.map Lexeme.token = Shape.tokensAll shapes)
    (inner : Unclosed) (outer : List Unclosed) (later : List Lexeme) :
    ∃ exprs : List Expr, exprs.map Expr.shape = shapes ∧
      assemble inner outer (found ++ later) =
        assemble ⟨inner.opening, exprs.reverse ++ inner.items⟩ outer
          later := by
  match shapes with
  | [] =>
      obtain rfl := List.map_eq_nil_iff.mp spelled
      exact ⟨[], rfl, rfl⟩
  | shape :: shapes =>
      obtain ⟨head, tail, rfl, headTokens, tailTokens⟩ :=
        List.map_eq_append_iff.mp spelled
      obtain ⟨expr, rfl, first⟩ :=
        assemble_shape shape headTokens inner outer (tail ++ later)
      obtain ⟨exprs, rfl, rest⟩ :=
        assemble_shapes shapes tailTokens (inner.push expr) outer later
      refine ⟨expr :: exprs, rfl, ?_⟩
      rw [List.append_assoc, first, rest]
      simp [Unclosed.push]

end

theorem ofLexemes_of_tokens {shape : Shape} {found : List Lexeme}
    (compound : shape.isAtom = false)
    (spelled : found.map Lexeme.token = shape.tokens) :
    ∃ expr, ofLexemes found = .ok expr ∧ expr.shape = shape := by
  cases shape with
  | atom => cases compound
  | compound items =>
      obtain ⟨first, inside, last, rfl, insideTokens⟩ :=
        exists_parenthesised spelled
      obtain ⟨exprs, rfl, assembled⟩ := assemble_shapes items insideTokens
        ⟨first, []⟩ [] [.closing last]
      refine ⟨.compound exprs ⟨first, last⟩, ?_, ?_⟩
      · refine Result.bind_eq_ok_iff.mpr
          ⟨(.compound exprs ⟨first, last⟩, []), ?_, rfl⟩
        rw [assembled]
        simp [assemble, Unclosed.close]
      · rw [Expr.shape, Expr.shapes_eq_map]

/-! ## Reading -/

/-- Reading gives an expression exactly when the text lays it out. -/
theorem readChars_eq_ok_iff {shape : Shape} {text : List Char} :
    (∃ expr, readChars text = .ok expr ∧ expr.shape = shape) ↔
      Formula shape text := by
  rw [formula_iff_spells, ← lexemes_eq_ok_iff]
  constructor
  · rintro ⟨expr, ok, rfl⟩
    obtain ⟨found, split, together⟩ := Result.bind_eq_ok_iff.mp ok
    obtain ⟨compound, rfl⟩ := ofLexemes_lexemes together
    exact ⟨compound, _, split, expr.map_token_lexemes⟩
  · rintro ⟨compound, found, split, tokens⟩
    obtain ⟨expr, together, same⟩ := ofLexemes_of_tokens compound tokens
    exact ⟨expr, Result.bind_eq_ok_iff.mpr ⟨found, split, together⟩, same⟩

/-- Reading follows the grammar: it gives an expression exactly when the text
lays it out, and it refuses exactly the texts that lay out nothing. -/
theorem read_iff_formula (text : String) :
    (∀ shape, (∃ expr, read text = .ok expr ∧ expr.shape = shape) ↔
      Formula shape text.toList) ∧
    ((∃ cause, read text = .error cause ∧
        Arena.ofText text = .error (.malformed cause)) ↔
      ¬∃ shape, Formula shape text.toList) := by
  have accepted : ∀ shape,
      (∃ expr, read text = .ok expr ∧ expr.shape = shape) ↔
        Formula shape text.toList :=
    fun _ => readChars_eq_ok_iff
  refine ⟨accepted, ?_, ?_⟩
  · rintro ⟨cause, refused, _⟩ ⟨shape, formula⟩
    obtain ⟨expr, ok, _⟩ := (accepted shape).mpr formula
    rw [refused] at ok
    cases ok
  · intro none
    cases outcome : read text with
    | error cause => exact ⟨cause, rfl, by rw [Arena.ofText, outcome]⟩
    | ok expr =>
        exact absurd ⟨_, (accepted _).mp ⟨expr, outcome, rfl⟩⟩ none

end FormulaEdit.Sexpr
