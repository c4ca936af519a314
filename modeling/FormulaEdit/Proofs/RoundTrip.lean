import FormulaEdit.Proofs.Arena.Rendering
import FormulaEdit.Proofs.Tree.Form

/-!
# Rendering and reading again

What is read has all brackets and no line breaks, so its rendering is its
expression printed.  Printing settles an expression, and a settled expression
is printed as it was read: rendering is a normal form.  An arena that shows
all its brackets is read back with the form that it had exactly when no list
of one item stands below the root and no list starts with an operator.
-/

namespace FormulaEdit

open Sexpr (Shape Expr IsAtom Spells Spelled Formula Token)

/-! ## What is read -/

namespace Sexpr

theorem Spells.isAtom_of_mem {tokens : List Token} {text : List Char}
    (spells : Spells tokens text) {name : String}
    (member : Token.atom name ∈ tokens) : IsAtom name := by
  induction spells with
  | nil => cases member
  | blank _ _ induction => exact induction member
  | opening _ induction => exact induction (by simpa using member)
  | closing _ induction => exact induction (by simpa using member)
  | @atom word tokens rest nonempty units _ _ induction =>
      rcases List.mem_cons.mp member with same | later
      · cases same
        apply isAtom_iff.mpr
        rw [String.toList_ofList]
        exact ⟨nonempty, units⟩
      · exact induction later

theorem isAtom_of_isOperator {token : String}
    (operator : Node.isOperator token = true) : IsAtom token := by
  have each : ∀ token ∈ Node.operators, lexemes token.toList =
      .ok [.atom token ⟨.start, ⟨0, token.length - 1⟩⟩] := by decide
  exact ⟨_, each token (List.contains_iff_mem.mp operator)⟩

theorem isAtom_listMarker : IsAtom Node.listMarker :=
  ⟨⟨.start, ⟨0, 3⟩⟩, by decide⟩

end Sexpr

/-- The atoms of a text, from the first to the last. -/
def Sexpr.atoms (text : String) : List String :=
  match Sexpr.lexemes text.toList with
  | .ok found => found.filterMap fun lexeme => lexeme.token.atom?
  | .error _ => []

theorem Sexpr.Spells.atoms_eq {tokens : List Token} {text : String}
    (spells : Spells tokens text.toList) :
    Sexpr.atoms text = tokens.filterMap Token.atom? := by
  obtain ⟨found, split, rfl⟩ := Sexpr.lexemes_eq_ok_iff.mpr spells
  rw [Sexpr.atoms, split, List.filterMap_map]
  rfl

theorem Sexpr.Shape.filterMap_tokens (shape : Shape) :
    shape.tokens.filterMap Token.atom? = Shape.atoms [shape] := by
  rw [Shape.atoms, Shape.tokensAll, Shape.tokensAll, List.append_nil]

theorem Sexpr.Spells.emptyList_notMem_atoms {shape : Shape}
    {text : List Char} (spells : Spells shape.tokens text) :
    Node.emptyList ∉ Shape.atoms [shape] := by
  rw [← Shape.filterMap_tokens, List.mem_filterMap]
  intro ⟨token, member, found⟩
  cases token with
  | opening => cases found
  | closing => cases found
  | atom name =>
      cases found
      exact not_isAtom_emptyList (spells.isAtom_of_mem member)

/-- A node as the reader makes it. -/
structure Label.AsRead (label : Label) (operands : List Tree) : Prop where
  readable : label.Readable (operands = [])
  bracketed : label.bracketed = true
  unbroken : label.breaksLine = false
  natural : 0 ≤ label.id

/-- A node that the reader makes from a token of some kind. -/
structure Label.Fresh (named : String → Prop) (label : Label)
    (operands : List Tree) : Prop where
  token : named label.token ∨ label.token = Node.emptyList ∧ operands = []
  bracketed : label.bracketed = true
  unbroken : label.breaksLine = false
  natural : 0 ≤ label.id

theorem Label.fresh {named : String → Prop} {id : Nat} {token : String}
    {span : Span} {operands : List Tree}
    (known : named token ∨ token = Node.emptyList ∧ operands = []) :
    Label.Fresh named { id := id, token := token, span := span } operands :=
  { token := known
    bracketed := rfl
    unbroken := rfl
    natural := Int.natCast_nonneg id }

namespace Tree

theorem Every.mono {first second : Label → List Tree → Prop} {tree : Tree}
    (every : tree.Every first)
    (implies : ∀ label operands, first label operands →
      second label operands) : tree.Every second := by
  induction every with
  | node here _ induction => exact .node (implies _ _ here) induction

section

variable {named : String → Prop}

mutual

/-- The tokens of a tree that is read are those of the text, and those that
mark lists. -/
theorem fresh_ofExpr (marker : named Node.listMarker) (id : Nat) (expr : Expr)
    (atoms : ∀ name, Token.atom name ∈ expr.shape.tokens → named name) :
    (ofExpr id expr).Every (Label.Fresh named) := by
  cases expr with
  | atom text span =>
      rw [ofExpr]
      have known := atoms text (by simp [Expr.shape, Shape.tokens])
      exact .node (Label.fresh (.inl known)) (by simp)
  | compound items span =>
      cases items with
      | nil =>
          rw [ofExpr]
          exact .node (Label.fresh (.inr ⟨rfl, rfl⟩)) (by simp)
      | cons head rest =>
          have inHead : ∀ name, Token.atom name ∈ head.shape.tokens →
              named name := by
            intro name member
            apply atoms
            simp [Expr.shape, Expr.shapes, Shape.tokens, Shape.tokensAll,
              member]
          have inRest : ∀ name,
              Token.atom name ∈ Shape.tokensAll (Expr.shapes rest) →
              named name := by
            intro name member
            apply atoms
            simp [Expr.shape, Expr.shapes, Shape.tokens, Shape.tokensAll,
              member]
          rw [ofExpr]
          cases found : Arena.operatorOf? head with
          | some operator =>
              rw [operatorOf?_eq] at found
              have isHead := (Shape.operator?_eq_some_iff.mp found).1
              have known := inHead operator (by simp [isHead, Shape.tokens])
              apply Every.node
              · exact Label.fresh (.inl known)
              · exact fresh_ofExprs marker (id + 1) rest inRest
          | none =>
              apply Every.node
              · exact Label.fresh (.inl marker)
              · exact List.forall_mem_cons.mpr
                  ⟨fresh_ofExpr marker (id + 1) head inHead,
                    fresh_ofExprs marker _ rest inRest⟩

theorem fresh_ofExprs (marker : named Node.listMarker) (next : Nat)
    (exprs : List Expr)
    (atoms : ∀ name, Token.atom name ∈ Shape.tokensAll (Expr.shapes exprs) →
      named name) :
    ∀ tree ∈ ofExprs next exprs, tree.Every (Label.Fresh named) := by
  cases exprs with
  | nil => simp [ofExprs]
  | cons expr rest =>
      rw [ofExprs, List.forall_mem_cons]
      constructor
      · apply fresh_ofExpr marker
        intro name member
        apply atoms
        simp [Expr.shapes, Shape.tokensAll, member]
      · apply fresh_ofExprs marker
        intro name member
        apply atoms
        simp [Expr.shapes, Shape.tokensAll, member]

end

end

theorem asRead_ofExpr (id : Nat) (expr : Expr)
    (atoms : ∀ name, Token.atom name ∈ expr.shape.tokens → IsAtom name) :
    (ofExpr id expr).Every Label.AsRead := by
  apply (fresh_ofExpr Sexpr.isAtom_listMarker id expr atoms).mono
  intro label operands fresh
  exact ⟨fresh.token, fresh.bracketed, fresh.unbroken, fresh.natural⟩

end Tree

namespace Sexpr.Shape

mutual

theorem formed_form (shape : Shape) : shape.form.Formed := by
  match shape with
  | .atom text => exact .node (.inl rfl) (by simp)
  | .compound [] => exact .node (.inl rfl) (by simp)
  | .compound (head :: rest) =>
      rw [form]
      cases found : head.operator? with
      | some operator =>
          have known := (operator?_eq_some_iff.mp found).2
          exact .node (.inr (.inl known)) (formed_forms rest)
      | none =>
          exact .node (.inr (.inr rfl))
            (List.forall_mem_cons.mpr ⟨formed_form head, formed_forms rest⟩)

theorem formed_forms (items : List Shape) :
    ∀ form ∈ forms items, form.Formed := by
  match items with
  | [] => simp [forms]
  | item :: items =>
      exact List.forall_mem_cons.mpr ⟨formed_form item, formed_forms items⟩

end

theorem isName_form {shape : Shape} (compound : shape.isAtom = false) :
    shape.form.isName = false := by
  match shape with
  | .atom text => cases compound
  | .compound [] => rfl
  | .compound (head :: rest) =>
      rw [form]
      cases found : head.operator? with
      | some operator =>
          have known := (operator?_eq_some_iff.mp found).2
          simp [Form.isName, known]
      | none => rfl

end Sexpr.Shape

namespace Arena

theorem Holds.every_live {arena : Arena} {parent : Int} {tree : Tree}
    (holds : arena.Holds parent tree) :
    tree.Every fun label operands => ∃ parent, arena.live? label.id =
      some (label.node parent (operands.map Tree.id)) := by
  induction holds with
  | node slot _ induction => exact .node ⟨_, slot⟩ induction

/-- The tokens of all live nodes can be read again. -/
def Readable (arena : Arena) : Prop :=
  ∀ node ∈ arena.liveNodes, (Label.ofNode node).Readable (node.children = [])

/-- Where all tokens can be read, the rendering spells the expressions that
the tree shows, however its lines are indented. -/
theorem Unfolds.render_spelled_indented {arena : Arena} {tree : Tree}
    (unfolds : arena.Unfolds tree) (readable : arena.Readable)
    {indent : String} (blank : Sexpr.Blank indent.toList) :
    ∃ text, arena.render { indent := indent } = .ok text ∧
      Spelled (tree.shapes true) text := by
  refine ⟨_, unfolds.render_eq { indent := indent }, ?_⟩
  apply Tree.text_spelled blank
  apply unfolds.holds.every_live.mono
  intro label operands ⟨parent, live⟩
  have natural := (live?_bounds live).1
  have unmarked : label.id ≠ -1 := by omega
  have token := readable _ (mem_liveNodes_iff.mpr ⟨label.id, live⟩)
  rw [Label.ofNode_node, Label.children_node, List.map_eq_nil_iff] at token
  exact ⟨token, unmarked⟩

theorem Unfolds.render_spelled {arena : Arena} {tree : Tree}
    (unfolds : arena.Unfolds tree) (readable : arena.Readable) :
    ∃ text, arena.render {} = .ok text ∧
      Spelled (tree.shapes true) text :=
  unfolds.render_spelled_indented readable (by decide)

/-- A tree as it is read from an expression. -/
structure ReadFrom (shape : Shape) (arena : Arena) (tree : Tree) : Prop
    extends arena.Presents tree where
  form : tree.form = shape.form
  asRead : tree.Every Label.AsRead

theorem readFrom_of_read {text : String} {expr : Expr}
    (read : Sexpr.read text = .ok expr) :
    ReadFrom expr.shape (ofExpr expr) (Tree.ofExpr 0 expr) := by
  have formula := Sexpr.readChars_eq_ok_iff.mp ⟨expr, read, rfl⟩
  have spells := (Sexpr.formula_iff_spells.mp formula).2
  exact
    { presents_ofExpr expr with
      form := Tree.form_ofExpr 0 expr
      asRead := Tree.asRead_ofExpr 0 expr fun _ member =>
        spells.isAtom_of_mem member }

theorem exists_formula_of_ofText {text : String} {arena : Arena}
    (read : ofText text = .ok arena) :
    ∃ shape tree, Formula shape text.toList ∧ ReadFrom shape arena tree := by
  unfold ofText at read
  split at read
  next expr found =>
      cases read
      exact ⟨_, _, Sexpr.readChars_eq_ok_iff.mp ⟨expr, found, rfl⟩,
        readFrom_of_read found⟩
  next => cases read

theorem ofText_of_formula {text : String} {shape : Shape}
    (formula : Formula shape text.toList) :
    ∃ arena tree, ofText text = .ok arena ∧ ReadFrom shape arena tree := by
  obtain ⟨expr, read, rfl⟩ := Sexpr.readChars_eq_ok_iff.mpr formula
  have found : Sexpr.read text = .ok expr := read
  exact ⟨_, _, by rw [ofText, found], readFrom_of_read found⟩

namespace ReadFrom

variable {arena : Arena} {tree : Tree} {shape : Shape}

/-- What was read is rendered as the expression of its form, printed. -/
theorem render_eq_print (read : ReadFrom shape arena tree) (indent : String) :
    arena.render { indent := indent } =
      .ok (shape.form.shape true).print := by
  have plain : tree.Every fun label _ => label.bracketed = true ∧
      label.breaksLine = false ∧ label.id ≠ -1 := by
    apply read.asRead.mono
    intro label operands asRead
    have natural := asRead.natural
    exact ⟨asRead.bracketed, asRead.unbroken, by omega⟩
  have text : tree.text { indent := indent } true 0 = _ :=
    Tree.text_eq_print plain true 0
  rw [read.toUnfolds.render_eq, text, read.form]

theorem print_spelled (read : ReadFrom shape arena tree) :
    Spelled [shape.form.shape true] (shape.form.shape true).print := by
  have readable : tree.Every fun label operands =>
      label.Readable (operands = []) ∧ label.id ≠ -1 := by
    apply read.asRead.mono
    intro label operands asRead
    have natural := asRead.natural
    exact ⟨asRead.readable, by omega⟩
  have bracketed : tree.Every fun label _ => label.bracketed = true :=
    read.asRead.mono fun _ _ asRead => asRead.bracketed
  have spelled : Spelled _ (tree.text {} true 0) :=
    Tree.text_spelled (by decide) readable true 0
  have rendered := read.toUnfolds.render_eq {}
  rw [read.render_eq_print] at rendered
  rwa [Tree.shapes_eq_of_bracketed bracketed, read.form,
    ← Except.ok.inj rendered] at spelled

end ReadFrom

end Arena

/-- Rendering is a normal form: the rendering of what was read has the same
atoms, can be read again, and is then rendered as it stands. -/
theorem render_normal_form {text : String} {arena : Arena}
    (read : Arena.ofText text = .ok arena) (indent : String) :
    ∃ shown again, arena.render { indent := indent } = .ok shown ∧
      Sexpr.atoms shown = Sexpr.atoms text ∧
      Arena.ofText shown = .ok again ∧
      again.render { indent := indent } = .ok shown := by
  obtain ⟨shape, tree, formula, readFrom⟩ :=
    Arena.exists_formula_of_ofText read
  obtain ⟨compound, spells⟩ := Sexpr.formula_iff_spells.mp formula
  have notName := Shape.isName_form compound
  have settled : (shape.form.shape true).Settled true :=
    shape.formed_form.settled_shape true fun _ => notName
  have shownCompound : (shape.form.shape true).isAtom = false := by
    rw [Form.isAtom_shape_top, notName]
  have shownFormula : Formula (shape.form.shape true)
      (shape.form.shape true).print.toList :=
    Sexpr.formula_iff_spells.mpr
      ⟨shownCompound, readFrom.print_spelled.spells⟩
  have sameAtoms : Sexpr.atoms (shape.form.shape true).print =
      Sexpr.atoms text := by
    rw [readFrom.print_spelled.spells.atoms_eq, spells.atoms_eq,
      Shape.filterMap_tokens, Shape.filterMap_tokens, Form.atoms_shape]
    exact shape.atoms_form spells.emptyList_notMem_atoms
  obtain ⟨again, treeAgain, readAgain, fromShown⟩ :=
    Arena.ofText_of_formula shownFormula
  refine ⟨_, again, readFrom.render_eq_print indent, sameAtoms, readAgain, ?_⟩
  rw [fromShown.render_eq_print, settled.shape_form]

/-- In `(((and)) (x))` brackets around single items are dropped, and with them
the first list, so that the operator comes to stand in front. -/
theorem render_normal_form_lists :
    ∃ arena again, Arena.ofText "(((and)) (x))" = .ok arena ∧
      arena.render {} = .ok "(and x)" ∧
      Arena.ofText "(and x)" = .ok again ∧
      again.render {} = .ok "(and x)" := by
  obtain ⟨arena, read, rendered⟩ : ∃ arena,
      Arena.ofText "(((and)) (x))" = .ok arena ∧
        arena.render {} = .ok "(and x)" := ⟨_, rfl, rfl⟩
  obtain ⟨shown, again, first, _, readAgain, second⟩ :=
    render_normal_form read "\t"
  have same : arena.render {} = .ok shown := first
  rw [rendered] at same
  cases same
  exact ⟨arena, again, read, rendered, readAgain, second⟩

/-! ## Arenas that are read back as they are -/

namespace Arena

/-- A node that a rendered arena keeps in its place: a list of one item is the
root, and a list does not start with an operator. -/
def KeepsPlace (arena : Arena) (node : Node) : Prop :=
  node.isPlainList = true →
    (node.children.length = 1 → node.id = arena.root) ∧
    ∀ first ∈ arena.liveNodes, node.children.head? = some first.id →
      first.children = [] → Node.isOperator first.token = false

section Faithful

variable {arena : Arena}
  (ids : ∀ id node, arena.live? id = some node → node.id = id)
include ids

theorem Holds.first_iff {parent : Int} {first : Tree}
    (holds : arena.Holds parent first) :
    (∀ node ∈ arena.liveNodes, first.id = node.id →
      node.children = [] → Node.isOperator node.token = false) ↔
    (first.form.operands = [] → Node.isOperator first.form.token = false) := by
  have live := holds.root_live
  rw [first.token_form, first.operands_form_eq_nil_iff]
  constructor
  · intro each childless
    refine each _ (mem_liveNodes_iff.mpr ⟨first.id, live⟩) rfl ?_
    rw [Label.children_node, childless, List.map_nil]
  · intro notOperator node member same childless
    obtain ⟨id, nodeLive⟩ := mem_liveNodes_iff.mp member
    rw [← ids id node nodeLive, ← same, live] at nodeLive
    obtain rfl := Option.some.inj nodeLive
    exact notOperator (List.map_eq_nil_iff.mp childless)

theorem keepsPlace_node_iff {label : Label} {parent : Int}
    {operands : List Tree} {top : Bool}
    (below : ∀ operand ∈ operands, arena.Holds label.id operand)
    (atRoot : label.id = arena.root ↔ top = true) :
    arena.KeepsPlace (label.node parent (operands.map Tree.id)) ↔
      (label.token = Node.listMarker → (Tree.forms operands).length = 1 →
        top = true) ∧
      (label.token = Node.listMarker → ∀ first ∈ (Tree.forms operands).head?,
        first.operands = [] → Node.isOperator first.token = false) := by
  cases operands with
  | nil => simp [KeepsPlace, Node.isPlainList, Tree.forms]
  | cons first rest =>
      have starts := (below first List.mem_cons_self).first_iff ids
      simp only [KeepsPlace, Node.isPlainList, Label.token_node,
        Label.children_node, Label.id_node, List.map_cons, List.isEmpty_cons,
        Bool.not_false, Bool.and_true, beq_iff_eq, List.length_cons,
        List.length_map, List.head?_cons, Option.some.injEq, Tree.forms,
        Tree.forms_eq_map, Option.mem_def, forall_eq', atRoot, starts]
      exact imp_and

/-- A tree has a faithful form when all of its nodes keep their places. -/
theorem Holds.faithful_iff {parent : Int} {tree : Tree}
    (holds : arena.Holds parent tree) (distinct : tree.ids.Nodup) {top : Bool}
    (atRoot : ∀ id ∈ tree.ids,
      id = arena.root ↔ top = true ∧ id = tree.id) :
    tree.form.Faithful top ↔
      ∀ id ∈ tree.ids, ∀ node, arena.live? id = some node →
        arena.KeepsPlace node := by
  induction holds generalizing top with
  | @node parent label operands slot below induction =>
      rw [Tree.ids_node, List.nodup_cons] at distinct
      rw [Tree.ids_node, List.forall_mem_cons] at atRoot
      have here : arena.KeepsPlace (label.node parent _) ↔ _ :=
        keepsPlace_node_iff ids below (by simpa using atRoot.1)
      have each : ∀ operand ∈ operands, operand.form.Faithful false ↔
          ∀ id ∈ operand.ids, ∀ node, arena.live? id = some node →
            arena.KeepsPlace node := by
        intro operand member
        apply induction operand member
        · exact Tree.nodup_ids_of_mem distinct.2 member
        · intro id inside
          have inOperands : id ∈ Tree.idsAll operands :=
            Tree.mem_idsAll.mpr ⟨operand, member, inside⟩
          have notLabel : id ≠ label.id := by
            intro same
            rw [same] at inOperands
            exact distinct.1 inOperands
          simpa [notLabel] using atRoot.2 id inOperands
      rw [Tree.form, Form.faithful_node_iff, ← and_assoc, ← here,
        Tree.forms_eq_map, List.forall_mem_map, Tree.ids_node,
        List.forall_mem_cons, slot]
      apply and_congr
      · simp
      · rw [forall₂_congr each]
        simp only [Tree.mem_idsAll]
        constructor
        · intro kept id inside
          obtain ⟨operand, member, inOperand⟩ := inside
          exact kept operand member id inOperand
        · intro kept operand member id inOperand
          exact kept id ⟨operand, member, inOperand⟩

end Faithful

theorem Presents.faithful_iff {arena : Arena} {tree : Tree}
    (presents : arena.Presents tree) :
    tree.form.Faithful true ↔
      ∀ node ∈ arena.liveNodes, arena.KeepsPlace node := by
  have atRoot : ∀ id ∈ tree.ids,
      id = arena.root ↔ true = true ∧ id = tree.id := by
    intro id _
    rw [presents.root]
    simp
  rw [presents.holds.faithful_iff presents.linked.ids presents.distinct atRoot]
  constructor
  · intro kept node member
    obtain ⟨id, live⟩ := mem_liveNodes_iff.mp member
    exact kept id (presents.covered id node live) node live
  · intro kept id _ node live
    exact kept node (mem_liveNodes_iff.mpr ⟨id, live⟩)

end Arena

theorem Tree.formed_form {tree : Tree}
    (headed : tree.Every fun label operands => operands = [] ∨
      Node.isOperator label.token = true ∨ label.token = Node.listMarker) :
    tree.form.Formed := by
  induction headed with
  | @node label operands here _ induction =>
      rw [form, forms_eq_map]
      apply Form.Formed.node
      · rwa [List.map_eq_nil_iff]
      · exact List.forall_mem_map.mpr induction

/-- Atoms and the empty list as leaves, operators and the list marker
elsewhere, can all be read again. -/
theorem Arena.readable_of_tokens {arena : Arena}
    (childless : ∀ node ∈ arena.liveNodes, node.children = [] →
      node.token = Node.emptyList ∨ IsAtom node.token)
    (headed : ∀ node ∈ arena.liveNodes, node.children ≠ [] →
      Node.isOperator node.token = true ∨ node.token = Node.listMarker) :
    arena.Readable := by
  intro node member
  by_cases nothing : node.children = []
  · rcases childless node member nothing with empty | isAtom
    · exact .inr ⟨empty, nothing⟩
    · exact .inl isAtom
  · rcases headed node member nothing with operator | marker
    · exact .inl (Sexpr.isAtom_of_isOperator operator)
    · have isAtom : IsAtom node.token := by
        rw [marker]
        exact Sexpr.isAtom_listMarker
      exact .inl isAtom

/-- An arena that shows all its brackets is rendered as a formula, and this
is read back with the tokens and operands of the arena exactly when no list
below the root has a single item and no list starts with an operator. -/
theorem rendered_form_eq_iff {arena : Arena} (valid : arena.validate = .ok ())
    (bracketed : ∀ node ∈ arena.liveNodes, node.bracketed = true)
    (childless : ∀ node ∈ arena.liveNodes, node.children = [] →
      node.token = Node.emptyList ∨ IsAtom node.token)
    (headed : ∀ node ∈ arena.liveNodes, node.children ≠ [] →
      Node.isOperator node.token = true ∨ node.token = Node.listMarker)
    (root : ∀ node, arena.rootNode = .ok node → node.children = [] →
      node.token = Node.emptyList ∨ Node.isOperator node.token = true) :
    ∃ text again before after, arena.render {} = .ok text ∧
      Arena.ofText text = .ok again ∧ arena.tree? = some before ∧
      again.tree? = some after ∧
      (after.form = before.form ↔
        (∀ node ∈ arena.liveNodes, node.isPlainList = true →
          node.children.length = 1 → node.id = arena.root) ∧
        (∀ node ∈ arena.liveNodes, node.isPlainList = true →
          ∀ first ∈ arena.liveNodes, node.children.head? = some first.id →
          first.children = [] → Node.isOperator first.token = false)) := by
  obtain ⟨tree, presents⟩ := Arena.validate_eq_ok_iff.mp valid
  have live : tree.Every fun label operands => ∃ parent,
      label.node parent (operands.map Tree.id) ∈ arena.liveNodes := by
    apply presents.holds.every_live.mono
    intro label _ ⟨parent, slot⟩
    exact ⟨parent, Arena.mem_liveNodes_iff.mpr ⟨label.id, slot⟩⟩
  have shown : tree.Every fun label _ => label.bracketed = true :=
    live.mono fun _ _ ⟨_, member⟩ => bracketed _ member
  have formed : tree.form.Formed := by
    apply Tree.formed_form
    apply live.mono
    intro label operands ⟨_, member⟩
    by_cases nothing : operands = []
    · exact .inl nothing
    · exact .inr (headed _ member (by simpa using nothing))
  have readable := Arena.readable_of_tokens childless headed
  have compound : (tree.form.shape true).isAtom = false := by
    rw [Form.isAtom_shape_top, Tree.isName_form_eq_false_iff]
    intro nothing
    apply root _ presents.rootNode_eq
    rw [Label.children_node, nothing, List.map_nil]
  obtain ⟨text, rendered, spelled⟩ := presents.render_spelled readable
  rw [Tree.shapes_eq_of_bracketed shown] at spelled
  obtain ⟨again, after, readAgain, readFrom⟩ := Arena.ofText_of_formula
    (Sexpr.formula_iff_spells.mpr ⟨compound, spelled.spells⟩)
  refine ⟨text, again, tree, after, rendered, readAgain,
    presents.tree?_eq_some, readFrom.tree?_eq_some, ?_⟩
  have fixed := formed.reread_eq_iff true
  rw [readFrom.form]
  refine fixed.trans (presents.faithful_iff.trans ?_)
  constructor
  · intro kept
    constructor
    · intro node member list
      exact (kept node member list).1
    · intro node member list
      exact (kept node member list).2
  · intro ⟨single, starts⟩ node member list
    exact ⟨single node member list, starts node member list⟩

/-- In `((x) y)` with a line break the list of `x` alone is lost: the text
is read back as `(x y)`. -/
theorem rendered_form_eq_iff_single :
    ∃ (arena again : Arena) (before after : Tree),
      arena.validate = .ok () ∧ arena.render {} = .ok "\n(x \n\ty)" ∧
      Arena.ofText "\n(x \n\ty)" = .ok again ∧ arena.tree? = some before ∧
      again.tree? = some after ∧ after.form ≠ before.form := by
  let arena : Arena :=
    { root := 0
      slots := #[
        { id := 0, token := "list", children := [1, 3], breaksLine := true },
        { id := 1, token := "list", parent := 0, children := [2] },
        { id := 2, token := "x", parent := 1 },
        { id := 3, token := "y", parent := 0, breaksLine := true }] }
  have valid : arena.validate = .ok () := rfl
  have childless : ∀ node ∈ arena.liveNodes, node.children = [] →
      node.token = Node.emptyList ∨ IsAtom node.token := by
    have tokens : ∀ node ∈ arena.liveNodes, node.children = [] →
        Sexpr.lexemes node.token.toList =
          .ok [.atom node.token ⟨.start, .start⟩] := by decide
    intro node member nothing
    exact .inr ⟨_, tokens node member nothing⟩
  obtain ⟨text, again, before, after, rendered, readAgain, beforeTree,
    afterTree, same⟩ := rendered_form_eq_iff valid (by decide) childless
      (by decide) (by
        intro node found
        cases found
        decide)
  have shown : arena.render {} = .ok "\n(x \n\ty)" := rfl
  rw [shown] at rendered
  cases rendered
  refine ⟨arena, again, before, after, valid, shown, readAgain, beforeTree,
    afterTree, ?_⟩
  intro equal
  exact absurd (same.mp equal).1 (by decide)

end FormulaEdit
