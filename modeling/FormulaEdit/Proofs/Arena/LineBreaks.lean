import FormulaEdit.Proofs.RoundTrip

/-!
# Line breaks are cosmetic

The expressions that a tree shows do not depend on its line breaks, and the
rendering spells these expressions however it is indented.  So two arenas that
differ in line breaks only are rendered with the same lexemes.  The reader puts
lexemes together without a look at their places, so it takes both renderings or
none, and what it makes of them differs in spans only.
-/

namespace FormulaEdit

open Sexpr (Expr Shape IsAtom Blank Spells Token)

/-- A node without its line break. -/
def Node.unbroken (node : Node) : Node := { node with breaksLine := false }

/-- A node without its place in the source. -/
def Node.unplaced (node : Node) : Node := { node with span := .unknown }

namespace Arena

/-- Two arenas differ in nothing but their line breaks, and in what is drawn of
these. -/
structure SameButBreaks (first second : Arena) : Prop where
  root : first.root = second.root
  slots : first.slots.map Node.unbroken = second.slots.map Node.unbroken

/-- An arena without places in the source. -/
def unplaced (arena : Arena) : Arena :=
  { arena with slots := arena.slots.map Node.unplaced }

/-! ## What the renderings spell -/

namespace SameButBreaks

variable {first second : Arena}

theorem live?_unbroken (same : SameButBreaks first second) (id : Int) :
    (first.live? id).map Node.unbroken =
      (second.live? id).map Node.unbroken := by
  have found : (first.node? id).map Node.unbroken =
      (second.node? id).map Node.unbroken := by
    unfold node?
    split
    · rfl
    · rw [← Array.getElem?_map, ← Array.getElem?_map, same.slots]
  have unfiltered : ∀ arena : Arena, (arena.live? id).map Node.unbroken =
      ((arena.node? id).map Node.unbroken).filter (·.isLive) := by
    intro arena
    rw [live?, Option.filter_map]
    rfl
  rw [unfiltered, unfiltered, found]

theorem readable (same : SameButBreaks first second)
    (readable : first.Readable) : second.Readable := by
  intro node member
  obtain ⟨id, live⟩ := mem_liveNodes_iff.mp member
  have unbroken := same.live?_unbroken id
  rw [live, Option.map_some, Option.map_eq_some_iff] at unbroken
  obtain ⟨before, liveBefore, alike⟩ := unbroken
  have token : before.token = node.token :=
    (congrArg Node.token alike :)
  have children : before.children = node.children :=
    (congrArg Node.children alike :)
  have readableBefore := readable before
    (mem_liveNodes_iff.mpr ⟨id, liveBefore⟩)
  unfold Label.Readable Label.ofNode at readableBefore ⊢
  rwa [token, children] at readableBefore

private theorem map_eq_map_of_ids {trees others : List Tree} {α : Type}
    {value : Tree → α} (ids : trees.map Tree.id = others.map Tree.id)
    (each : ∀ tree ∈ trees, ∀ other ∈ others, tree.id = other.id →
      value tree = value other) : trees.map value = others.map value := by
  induction trees generalizing others with
  | nil =>
      obtain rfl := List.map_eq_nil_iff.mp ids.symm
      rfl
  | cons tree trees induction =>
      obtain ⟨other, rest, rfl, head, tail⟩ := List.map_eq_cons_iff.mp ids.symm
      rw [List.map_cons, List.map_cons]
      congr 1
      · exact each tree List.mem_cons_self other List.mem_cons_self head.symm
      · apply induction tail.symm
        intro tree member other otherMember
        exact each tree (List.mem_cons_of_mem _ member) other
          (List.mem_cons_of_mem _ otherMember)

theorem shapes_eq (same : SameButBreaks first second)
    {parent otherParent : Int} {tree other : Tree}
    (holds : first.Holds parent tree)
    (otherHolds : second.Holds otherParent other) (root : tree.id = other.id)
    (top : Bool) : tree.shapes top = other.shapes top := by
  induction tree generalizing other parent otherParent top with
  | node label operands induction =>
      cases other with
      | node otherLabel otherOperands =>
          have unbroken := same.live?_unbroken label.id
          have sameId : label.id = otherLabel.id := root
          rw [holds.slot, sameId, otherHolds.slot, Option.map_some,
            Option.map_some, Option.some.injEq] at unbroken
          have token : label.token = otherLabel.token :=
            congrArg Node.token unbroken
          have bracketed : label.bracketed = otherLabel.bracketed :=
            congrArg Node.bracketed unbroken
          have children : operands.map Tree.id = otherOperands.map Tree.id :=
            congrArg Node.children unbroken
          have parts : Tree.shapesAll operands =
              Tree.shapesAll otherOperands := by
            rw [Tree.shapesAll_eq_map, Tree.shapesAll_eq_map]
            apply map_eq_map_of_ids children
            intro operand member other otherMember below
            exact induction operand member (holds.operand_holds operand member)
              (otherHolds.operand_holds other otherMember) below false
          simp only [Tree.shapes, Label.shapes, token, bracketed, parts]

end SameButBreaks

end Arena

/-! ## What is read from the same lexemes -/

namespace Sexpr.Shape

mutual

/-- An expression without places, as it would be read from nowhere. -/
def unplaced : Shape → Expr
  | .atom text => .atom text .unknown
  | .compound items => .compound (unplacedAll items) .unknown

/-- Expressions as they would be read from nowhere. -/
def unplacedAll : List Shape → List Expr
  | [] => []
  | item :: items => unplaced item :: unplacedAll items

end

end Sexpr.Shape

theorem View.ofNodes_unplaced (nodes : List Node) :
    View.ofNodes (nodes.map Node.unplaced) = View.ofNodes nodes := by
  have live : (nodes.map Node.unplaced).filter (·.isLive) =
      (nodes.filter (·.isLive)).map Node.unplaced := List.filter_map
  simp only [View.ofNodes, live, List.map_map, List.flatMap_map]
  rfl

namespace Arena

theorem operatorOf?_unplaced (expr : Expr) :
    operatorOf? expr.shape.unplaced = operatorOf? expr := by
  cases expr with
  | atom text span => rfl
  | compound items span => rfl

mutual

/-- The places in an expression decide nothing but spans. -/
theorem block_unplaced (parent : Int) (id : Nat) (expr : Expr) :
    block parent id expr.shape.unplaced =
      (block parent id expr).map Node.unplaced := by
  match expr with
  | .atom text span => simp [Expr.shape, Shape.unplaced, block, Node.unplaced]
  | .compound [] span =>
      simp [Expr.shape, Expr.shapes, Shape.unplaced, Shape.unplacedAll, block,
        Node.unplaced]
  | .compound (head :: rest) span =>
      rw [Expr.shape, Expr.shapes, Shape.unplaced, Shape.unplacedAll, block,
        block, operatorOf?_unplaced]
      cases operatorOf? head with
      | some operator =>
          simp only [blocks_unplaced id (id + 1) rest, List.map_cons]
          rfl
      | none =>
          simp only [block_unplaced id (id + 1) head, List.length_map,
            blocks_unplaced id _ rest, List.map_cons, List.map_append]
          rfl

theorem blocks_unplaced (parent : Int) (next : Nat) (exprs : List Expr) :
    blocks parent next (Shape.unplacedAll (Expr.shapes exprs)) =
      ((blocks parent next exprs).1,
        (blocks parent next exprs).2.map Node.unplaced) := by
  match exprs with
  | [] => rfl
  | expr :: rest =>
      simp only [Expr.shapes, Shape.unplacedAll, blocks,
        block_unplaced parent next expr, List.length_map,
        blocks_unplaced parent _ rest, List.map_append]

end

theorem unplaced_ofExpr (expr : Expr) :
    (ofExpr expr).unplaced = ofExpr expr.shape.unplaced := by
  simp only [unplaced, ofExpr_eq, refresh, block_unplaced, List.map_toArray,
    View.ofNodes_unplaced]

/-- A text that spells the lexemes of another one is read if that is, and the
arenas differ in spans only. -/
theorem ofText_of_spells {text other : String} {tokens : List Token}
    (spells : Spells tokens text.toList)
    (otherSpells : Spells tokens other.toList) {arena : Arena}
    (read : ofText text = .ok arena) :
    ∃ again, ofText other = .ok again ∧ again.unplaced = arena.unplaced := by
  unfold ofText at read
  split at read
  next expr found =>
      cases read
      have formula := Sexpr.readChars_eq_ok_iff.mp ⟨expr, found, rfl⟩
      obtain ⟨compound, shapeSpells⟩ := Sexpr.formula_iff_spells.mp formula
      rw [← shapeSpells.tokens_eq spells] at otherSpells
      obtain ⟨otherExpr, otherRead, shape⟩ := Sexpr.readChars_eq_ok_iff.mpr
        (Sexpr.formula_iff_spells.mpr ⟨compound, otherSpells⟩)
      have otherFound : Sexpr.read other = .ok otherExpr := otherRead
      refine ⟨ofExpr otherExpr, by rw [ofText, otherFound], ?_⟩
      rw [unplaced_ofExpr, unplaced_ofExpr, shape]
  next => cases read

end Arena

/-- Line breaks are cosmetic.  Two checked arenas that differ in line breaks
only, with tokens that can be read again, are rendered with the same lexemes,
however the lines of each are indented.  Both renderings can be read or none,
and the arenas that are read from them differ in spans only. -/
theorem line_breaks_cosmetic {first second : Arena}
    (valid : first.validate = .ok ()) (otherValid : second.validate = .ok ())
    (same : first.SameButBreaks second)
    (childless : ∀ node ∈ first.liveNodes, node.children = [] →
      node.token = Node.emptyList ∨ IsAtom node.token)
    (headed : ∀ node ∈ first.liveNodes, node.children ≠ [] →
      IsAtom node.token)
    {indent otherIndent : String} (blank : Blank indent.toList)
    (otherBlank : Blank otherIndent.toList) :
    ∃ text other lexemes otherLexemes,
      first.render { indent := indent } = .ok text ∧
      second.render { indent := otherIndent } = .ok other ∧
      Sexpr.lexemes text.toList = .ok lexemes ∧
      Sexpr.lexemes other.toList = .ok otherLexemes ∧
      lexemes.map Sexpr.Lexeme.token = otherLexemes.map Sexpr.Lexeme.token ∧
      ((∃ arena, Arena.ofText text = .ok arena) ↔
        ∃ arena, Arena.ofText other = .ok arena) ∧
      ∀ arena otherArena, Arena.ofText text = .ok arena →
        Arena.ofText other = .ok otherArena →
        arena.unplaced = otherArena.unplaced := by
  obtain ⟨tree, presents⟩ := Arena.validate_eq_ok_iff.mp valid
  obtain ⟨otherTree, otherPresents⟩ := Arena.validate_eq_ok_iff.mp otherValid
  have readable : first.Readable := by
    intro node member
    by_cases nothing : node.children = []
    · rcases childless node member nothing with empty | isAtom
      · exact .inr ⟨empty, nothing⟩
      · exact .inl isAtom
    · exact .inl (headed node member nothing)
  have root : tree.id = otherTree.id := by
    rw [← presents.root, ← otherPresents.root, same.root]
  obtain ⟨text, rendered, spelled⟩ :=
    presents.render_spelled_indented readable blank
  obtain ⟨other, otherRendered, otherSpelled⟩ :=
    otherPresents.render_spelled_indented (same.readable readable) otherBlank
  rw [← same.shapes_eq presents.holds otherPresents.holds root] at otherSpelled
  have spells := spelled [] [] trivial .nil
  have otherSpells := otherSpelled [] [] trivial .nil
  rw [List.append_nil, List.append_nil] at spells otherSpells
  obtain ⟨lexemes, scanned, tokens⟩ := Sexpr.lexemes_eq_ok_iff.mpr spells
  obtain ⟨otherLexemes, otherScanned, otherTokens⟩ :=
    Sexpr.lexemes_eq_ok_iff.mpr otherSpells
  refine ⟨text, other, lexemes, otherLexemes, rendered, otherRendered, scanned,
    otherScanned, tokens.trans otherTokens.symm, ⟨?_, ?_⟩, ?_⟩
  · intro ⟨arena, read⟩
    obtain ⟨again, readAgain, _⟩ :=
      Arena.ofText_of_spells spells otherSpells read
    exact ⟨again, readAgain⟩
  · intro ⟨arena, read⟩
    obtain ⟨again, readAgain, _⟩ :=
      Arena.ofText_of_spells otherSpells spells read
    exact ⟨again, readAgain⟩
  · intro arena otherArena read otherRead
    obtain ⟨again, readAgain, unplaced⟩ :=
      Arena.ofText_of_spells spells otherSpells read
    rw [otherRead] at readAgain
    cases readAgain
    exact unplaced.symm

/-- In the first arena three line breaks stand in front of the literal with
nothing between them, and the disjunction has no brackets.  The second arena is
on one line. -/
theorem line_breaks_cosmetic_literal :
    ∃ first second arena otherArena : Arena,
      first.validate = .ok () ∧ second.validate = .ok () ∧
      first.SameButBreaks second ∧
      first.render { indent := " " } =
        .ok "\n(and \n \n  \"a (b\" () \n or x\\ y z)" ∧
      second.render { indent := "" } = .ok "(and \"a (b\" () or x\\ y z)" ∧
      Arena.ofText "\n(and \n \n  \"a (b\" () \n or x\\ y z)" = .ok arena ∧
      Arena.ofText "(and \"a (b\" () or x\\ y z)" = .ok otherArena ∧
      arena ≠ otherArena ∧ arena.unplaced = otherArena.unplaced := by
  let broken : Arena :=
    { root := 0
      slots := #[
        { id := 0, token := "and", children := [1, 3, 4], breaksLine := true },
        { id := 1, token := "list", parent := 0, children := [2]
          breaksLine := true },
        { id := 2, token := "\"a (b\"", parent := 1, breaksLine := true },
        { id := 3, token := "()", parent := 0 },
        { id := 4, token := "or", parent := 0, children := [5, 6]
          breaksLine := true, bracketed := false },
        { id := 5, token := "x\\ y", parent := 4 },
        { id := 6, token := "z", parent := 4 }] }
  let flat : Arena :=
    { root := 0, slots := (broken.slots.toList.map Node.unbroken).toArray }
  have valid : broken.validate = .ok () := rfl
  have flatValid : flat.validate = .ok () := rfl
  have same : broken.SameButBreaks flat :=
    ⟨rfl, by simp [broken, flat, Node.unbroken]⟩
  have tokens : ∀ node ∈ broken.liveNodes, node.token = Node.emptyList ∧
      node.children = [] ∨ Sexpr.lexemes node.token.toList =
        .ok [.atom node.token ⟨.start, ⟨0, node.token.length - 1⟩⟩] := by
    decide
  have childless : ∀ node ∈ broken.liveNodes, node.children = [] →
      node.token = Node.emptyList ∨ IsAtom node.token := by
    intro node member _
    exact (tokens node member).imp And.left fun atom => ⟨_, atom⟩
  have headed : ∀ node ∈ broken.liveNodes, node.children ≠ [] →
      IsAtom node.token := by
    intro node member operands
    rcases tokens node member with ⟨_, nothing⟩ | atom
    · exact absurd nothing operands
    · exact ⟨_, atom⟩
  obtain ⟨text, other, _, _, rendered, otherRendered, _, _, _, _, unplaced⟩ :=
    line_breaks_cosmetic valid flatValid same childless headed
      (show Blank " ".toList by decide) (show Blank "".toList by decide)
  have shown : broken.render { indent := " " } =
      .ok "\n(and \n \n  \"a (b\" () \n or x\\ y z)" := rfl
  have flatShown : flat.render { indent := "" } =
      .ok "(and \"a (b\" () or x\\ y z)" := rfl
  rw [shown] at rendered
  rw [flatShown] at otherRendered
  cases rendered
  cases otherRendered
  obtain ⟨arena, otherArena, read, otherRead, different⟩ :
      ∃ arena otherArena,
        Arena.ofText "\n(and \n \n  \"a (b\" () \n or x\\ y z)" = .ok arena ∧
        Arena.ofText "(and \"a (b\" () or x\\ y z)" = .ok otherArena ∧
        arena ≠ otherArena :=
    ⟨_, _, rfl, rfl, by decide +kernel⟩
  exact ⟨broken, flat, arena, otherArena, valid, flatValid, same, shown,
    flatShown, read, otherRead, different,
    unplaced arena otherArena read otherRead⟩

end FormulaEdit
