import FormulaEdit.Proofs.Arena.Build
import FormulaEdit.Proofs.Tree.Text

/-!
# Forms

The form of a tree is what is left without ids, layout and places: tokens and
operands.  Where all brackets are shown, a form decides the expression that its
text spells, and an expression decides the form that is read from it.  Going
from a form to its expression and back is the identity exactly on the
`Faithful` forms; going from a `Settled` expression to its form and back always
is.
-/

namespace FormulaEdit

open Sexpr (Shape Expr Spelled)

theorem Node.ne_of_isOperator {token : String}
    (operator : Node.isOperator token = true) :
    token ≠ Node.listMarker ∧ token ≠ Node.emptyList := by
  constructor
  · intro same
    rw [same] at operator
    exact absurd operator (by decide)
  · intro same
    rw [same] at operator
    exact absurd operator (by decide)

/-- A formula without ids, layout and places. -/
inductive Form where
  | node (token : String) (operands : List Form)

namespace Form

@[elab_as_elim, induction_eliminator]
theorem induction {motive : Form → Prop}
    (node : ∀ token operands, (∀ operand ∈ operands, motive operand) →
      motive (.node token operands)) (form : Form) : motive form :=
  @Form.rec motive (fun forms => ∀ form ∈ forms, motive form)
    (fun token operands below => node token operands below)
    (fun _ member => absurd member List.not_mem_nil)
    (fun _ _ head tail => List.forall_mem_cons.mpr ⟨head, tail⟩) form

def token : Form → String
  | .node token _ => token

def operands : Form → List Form
  | .node _ operands => operands

/-- A childless node that is shown without brackets even at the root. -/
def isName : Form → Bool
  | .node token operands =>
      operands.isEmpty && token != Node.emptyList && !Node.isOperator token

mutual

/-- The expression that a form shows when all brackets are shown. -/
def shape (top : Bool) : Form → Shape
  | .node token [] =>
      if token = Node.emptyList then .compound []
      else if top && Node.isOperator token then .compound [.atom token]
      else .atom token
  | .node token (first :: rest) =>
      if token = Node.listMarker then
        if top || !rest.isEmpty then
          .compound (first.shape false :: shapes rest)
        else first.shape false
      else .compound (.atom token :: first.shape false :: shapes rest)

/-- The expressions that operands show. -/
def shapes : List Form → List Shape
  | [] => []
  | form :: forms => form.shape false :: shapes forms

end

theorem shapes_eq_map (forms : List Form) :
    shapes forms = forms.map (shape false) := by
  induction forms with
  | nil => rfl
  | cons form forms induction => rw [shapes, induction, List.map_cons]

theorem isAtom_shape_top (form : Form) :
    (form.shape true).isAtom = form.isName := by
  match form with
  | .node token [] =>
      simp only [shape, isName]
      by_cases empty : token = Node.emptyList
      · simp [empty]
      · cases operator : Node.isOperator token <;> simp [empty]
  | .node token (first :: rest) =>
      simp only [shape, isName]
      by_cases marker : token = Node.listMarker <;> simp [marker]

end Form

/-! ## Reading an expression as a form -/

namespace Sexpr.Shape

/-- The operator that an expression is. -/
def operator? : Shape → Option String
  | .atom text => if Node.isOperator text then some text else none
  | .compound _ => none

theorem operator?_eq_some_iff {shape : Shape} {operator : String} :
    shape.operator? = some operator ↔
      shape = .atom operator ∧ Node.isOperator operator = true := by
  cases shape with
  | compound items => simp [operator?]
  | atom text =>
      simp only [operator?, Shape.atom.injEq]
      by_cases known : Node.isOperator text = true
      · simp only [known, if_true, Option.some.injEq]
        constructor
        · intro same
          exact ⟨same, same ▸ known⟩
        · intro both
          exact both.1
      · simp only [known]
        constructor
        · intro impossible
          cases impossible
        · intro both
          exact absurd (both.1 ▸ both.2) known

mutual

/-- The form of an expression: an operator in front becomes the token. -/
def form : Shape → Form
  | .atom text => .node text []
  | .compound [] => .node Node.emptyList []
  | .compound (head :: rest) =>
      match head.operator? with
      | some operator => .node operator (forms rest)
      | none => .node Node.listMarker (head.form :: forms rest)

/-- The forms of expressions. -/
def forms : List Shape → List Form
  | [] => []
  | item :: items => item.form :: forms items

end

theorem forms_eq_map (items : List Shape) : forms items = items.map form := by
  induction items with
  | nil => rfl
  | cons item items induction => rw [forms, induction, List.map_cons]

mutual

/-- An expression written with single spaces. -/
def print : Shape → String
  | .atom text => text
  | .compound items => Layout.bracket (" ".intercalate (prints items))

def prints : List Shape → List String
  | [] => []
  | item :: items => item.print :: prints items

end

theorem prints_eq_map (items : List Shape) :
    prints items = items.map print := by
  induction items with
  | nil => rfl
  | cons item items induction => rw [prints, induction, List.map_cons]

end Sexpr.Shape

namespace Tree

mutual

/-- The form of a tree. -/
def form : Tree → Form
  | .node label operands => .node label.token (forms operands)

/-- The forms of operands. -/
def forms : List Tree → List Form
  | [] => []
  | tree :: trees => tree.form :: forms trees

end

theorem forms_eq_map (trees : List Tree) : forms trees = trees.map form := by
  induction trees with
  | nil => rfl
  | cons tree trees induction => rw [forms, induction, List.map_cons]

theorem form_node (label : Label) (operands : List Tree) :
    (Tree.node label operands).form = .node label.token (operands.map form) := by
  rw [form, forms_eq_map]

theorem token_form (tree : Tree) : tree.form.token = tree.label.token := by
  cases tree
  rfl

theorem operands_form_eq_nil_iff (tree : Tree) :
    tree.form.operands = [] ↔ tree.operands = [] := by
  cases tree
  rw [form, Form.operands, forms_eq_map, List.map_eq_nil_iff, operands]

theorem isName_form_eq_false_iff (tree : Tree) :
    tree.form.isName = false ↔ (tree.operands = [] →
      tree.label.token = Node.emptyList ∨
        Node.isOperator tree.label.token = true) := by
  match tree with
  | .node label [] =>
      by_cases empty : label.token = Node.emptyList <;>
        simp [form, forms, Form.isName, empty]
  | .node label (first :: rest) => simp [form, forms, Form.isName]

theorem operatorOf?_eq (head : Expr) :
    Arena.operatorOf? head = head.shape.operator? := by
  cases head with
  | atom text span =>
      simp [Arena.operatorOf?, Expr.atomText?, Expr.shape, Shape.operator?,
        Option.filter]
  | compound items span => rfl

mutual

/-- The tree of an expression has the form of the expression. -/
theorem form_ofExpr (id : Nat) (expr : Expr) :
    (ofExpr id expr).form = expr.shape.form := by
  cases expr with
  | atom text span => simp [ofExpr, form, forms, Expr.shape, Shape.form]
  | compound items span =>
      cases items with
      | nil =>
          simp [ofExpr, form, forms, Expr.shape, Expr.shapes, Shape.form]
      | cons head rest =>
          rw [ofExpr, Expr.shape, Expr.shapes, Shape.form, operatorOf?_eq]
          cases head.shape.operator? with
          | some operator => simp only [form, forms_ofExprs]
          | none =>
              simp only [form, forms, forms_ofExprs, form_ofExpr (id + 1) head]

theorem forms_ofExprs (next : Nat) (exprs : List Expr) :
    forms (ofExprs next exprs) = Shape.forms (Expr.shapes exprs) := by
  cases exprs with
  | nil => rfl
  | cons expr rest =>
      simp only [ofExprs, forms, Expr.shapes, Shape.forms,
        form_ofExpr next expr, forms_ofExprs]

end

/-! ## Trees that show all brackets -/

theorem shapes_eq_of_bracketed {tree : Tree}
    (bracketed : tree.Every fun label _ => label.bracketed = true)
    (top : Bool) : tree.shapes top = [tree.form.shape top] := by
  induction tree generalizing top with
  | node label operands induction =>
      have parts : shapesAll operands =
          (Form.shapes (forms operands)).map fun shape => [shape] := by
        rw [shapesAll_eq_map, Form.shapes_eq_map, forms_eq_map, List.map_map,
          List.map_map]
        apply List.map_congr_left
        intro operand member
        exact induction operand member (bracketed.operand operand member) false
      have shown := bracketed.root
      rw [shapes, form, parts]
      cases operands with
      | nil =>
          simp only [forms, Form.shapes, Form.shape, Label.shapes, shown,
            List.map_nil, List.isEmpty_nil, if_true, Bool.and_true,
            apply_ite (fun shape : Shape => [shape])]
      | cons first rest =>
          have single : ∀ shapes : List Shape,
              (shapes.map fun shape => [shape]).flatten = shapes := by
            intro shapes
            rw [← List.flatMap_def, List.flatMap_singleton']
          cases rest <;> cases top <;>
            by_cases marker : label.token = Node.listMarker <;>
            simp [forms, Form.shapes, Form.shape, Label.shapes, shown, marker,
              single]

theorem text_eq_print {layout : Layout} {tree : Tree}
    (plain : tree.Every fun label _ => label.bracketed = true ∧
      label.breaksLine = false ∧ label.id ≠ layout.highlight)
    (top : Bool) (depth : Nat) :
    tree.text layout top depth = (tree.form.shape top).print := by
  induction tree generalizing top depth with
  | node label operands induction =>
      have parts : texts layout (depth + 1) operands =
          Shape.prints (Form.shapes (forms operands)) := by
        rw [texts_eq_map, Shape.prints_eq_map, Form.shapes_eq_map,
          forms_eq_map, List.map_map, List.map_map]
        apply List.map_congr_left
        intro operand member
        exact induction operand member (plain.operand operand member) false
          (depth + 1)
      obtain ⟨shown, unbroken, unmarked⟩ := plain.root
      rw [text, form, parts, Label.text, Label.lead, if_neg unmarked]
      cases operands with
      | nil =>
          by_cases empty : label.token = Node.emptyList
          · have notOperator : Node.isOperator Node.emptyList = false := by
              decide
            simp [forms, Form.shapes, Form.shape, Label.bareText, shown,
              unbroken, empty, notOperator, Shape.prints, Shape.print]
            rfl
          · cases top <;> cases operator : Node.isOperator label.token <;>
              simp [forms, Form.shapes, Form.shape, Label.bareText, shown,
                unbroken, empty, operator, Shape.prints, Shape.print]
      | cons first rest =>
          cases rest <;> cases top <;>
            by_cases marker : label.token = Node.listMarker <;>
            simp [forms, Form.shapes, Form.shape, Label.bareText, shown,
              unbroken, marker, Shape.prints, Shape.print]

end Tree

/-! ## Atoms -/

def Sexpr.Token.atom? : Sexpr.Token → Option String
  | .atom text => some text
  | _ => none

/-- The atoms of expressions, from the first to the last. -/
def Sexpr.Shape.atoms (shapes : List Shape) : List String :=
  (Shape.tokensAll shapes).filterMap Sexpr.Token.atom?

namespace Sexpr.Shape

theorem atoms_nil : atoms [] = [] := rfl

theorem atoms_atom_cons (text : String) (shapes : List Shape) :
    atoms (.atom text :: shapes) = text :: atoms shapes := by
  simp [atoms, tokensAll, tokens, Token.atom?]

theorem atoms_compound_cons (items shapes : List Shape) :
    atoms (.compound items :: shapes) = atoms items ++ atoms shapes := by
  simp [atoms, tokensAll, tokens, Token.atom?, List.filterMap_cons]

theorem atoms_append (before after : List Shape) :
    atoms (before ++ after) = atoms before ++ atoms after := by
  rw [atoms, tokensAll_append, List.filterMap_append, atoms, atoms]

theorem atoms_cons (shape : Shape) (shapes : List Shape) :
    atoms (shape :: shapes) = atoms [shape] ++ atoms shapes :=
  atoms_append [shape] shapes

end Sexpr.Shape

namespace Form

mutual

/-- The atoms that a form shows. -/
def atoms : Form → List String
  | .node token [] => if token = Node.emptyList then [] else [token]
  | .node token (first :: rest) =>
      let operands := first.atoms ++ atomsAll rest
      if token = Node.listMarker then operands else token :: operands

def atomsAll : List Form → List String
  | [] => []
  | form :: forms => form.atoms ++ atomsAll forms

end

theorem atoms_operator {token : String}
    (operator : Node.isOperator token = true) (operands : List Form) :
    (Form.node token operands).atoms = token :: atomsAll operands := by
  obtain ⟨notMarker, notEmpty⟩ := Node.ne_of_isOperator operator
  cases operands with
  | nil => simp [atoms, atomsAll, notEmpty]
  | cons first rest => simp [atoms, atomsAll, notMarker]

mutual

theorem atoms_shape (form : Form) (top : Bool) :
    Shape.atoms [form.shape top] = form.atoms := by
  match form with
  | .node token [] =>
      by_cases empty : token = Node.emptyList
      · simp [shape, atoms, empty, Shape.atoms_compound_cons,
          Shape.atoms_nil]
      · cases top <;> cases operator : Node.isOperator token <;>
          simp [shape, atoms, empty, operator, Shape.atoms_compound_cons,
            Shape.atoms_atom_cons, Shape.atoms_nil]
  | .node token (first :: rest) =>
      have here := atoms_shape first false
      have all : Shape.atoms (first.shape false :: shapes rest) =
          first.atoms ++ atomsAll rest := by
        rw [Shape.atoms_cons, here, atoms_shapes rest]
      by_cases marker : token = Node.listMarker
      · cases rest with
        | nil =>
            cases top <;>
              simp [shape, shapes, atoms, atomsAll, marker, here,
                Shape.atoms_compound_cons, Shape.atoms_nil]
        | cons next rest =>
            simp [shape, atoms, marker, all, Shape.atoms_compound_cons,
              Shape.atoms_nil]
      · simp [shape, atoms, marker, all, Shape.atoms_compound_cons,
          Shape.atoms_atom_cons, Shape.atoms_nil]

theorem atoms_shapes (forms : List Form) :
    Shape.atoms (shapes forms) = atomsAll forms := by
  match forms with
  | [] => rfl
  | form :: forms =>
      rw [shapes, Shape.atoms_cons, atoms_shape form false,
        atoms_shapes forms, atomsAll]

end

end Form

namespace Sexpr.Shape

mutual

/-- The form of an expression has its atoms, if none of them looks like the
empty compound. -/
theorem atoms_form (shape : Shape)
    (named : Node.emptyList ∉ atoms [shape]) :
    shape.form.atoms = atoms [shape] := by
  match shape with
  | .atom text =>
      rw [atoms_atom_cons, atoms_nil, List.mem_singleton] at named
      rw [form, Form.atoms, if_neg (Ne.symm named), atoms_atom_cons,
        atoms_nil]
  | .compound [] => rfl
  | .compound (head :: rest) =>
      rw [atoms_compound_cons, atoms_nil, List.append_nil, atoms_cons,
        List.mem_append, not_or] at named
      have later := atoms_forms rest named.2
      rw [form, atoms_compound_cons, atoms_nil, List.append_nil, atoms_cons]
      cases found : head.operator? with
      | some operator =>
          obtain ⟨rfl, known⟩ := operator?_eq_some_iff.mp found
          simp only [Form.atoms_operator known, later, atoms_atom_cons,
            atoms_nil, List.singleton_append]
      | none =>
          simp only [Form.atoms, later, atoms_form head named.1, if_true]

theorem atoms_forms (items : List Shape)
    (named : Node.emptyList ∉ atoms items) :
    Form.atomsAll (forms items) = atoms items := by
  match items with
  | [] => rfl
  | item :: items =>
      rw [atoms_cons, List.mem_append, not_or] at named
      rw [forms, Form.atomsAll, atoms_form item named.1,
        atoms_forms items named.2, ← atoms_cons]

end

end Sexpr.Shape

/-! ## Settled expressions -/

/-- Below the root no compound has a single item, and no atom looks like the
empty compound. -/
inductive Sexpr.Shape.Settled : (top : Bool) → Shape → Prop where
  | atom {text : String} (notEmpty : text ≠ Node.emptyList) :
      Settled false (.atom text)
  | compound {top : Bool} {items : List Shape}
      (several : top = true ∨ items.length ≠ 1)
      (below : ∀ item ∈ items, Settled false item) :
      Settled top (.compound items)

theorem Sexpr.Shape.Settled.shape_form {top : Bool} {shape : Shape}
    (settled : shape.Settled top) : shape.form.shape top = shape := by
  induction settled with
  | atom notEmpty => simp [Shape.form, Form.shape, notEmpty]
  | @compound top items several below induction =>
      have each : ∀ rest : List Shape, (∀ item ∈ rest, item ∈ items) →
          Form.shapes (Shape.forms rest) = rest := by
        intro rest part
        rw [Form.shapes_eq_map, forms_eq_map, List.map_map]
        calc
          rest.map (Form.shape false ∘ Shape.form) = rest.map id :=
            List.map_congr_left fun item member =>
              induction item (part item member)
          _ = rest := List.map_id rest
      cases items with
      | nil => simp [Shape.form, Form.shape]
      | cons head rest =>
          have later := each rest fun item member =>
            List.mem_cons_of_mem head member
          rw [Shape.form]
          cases found : head.operator? with
          | some operator =>
              obtain ⟨rfl, known⟩ := operator?_eq_some_iff.mp found
              obtain ⟨notMarker, notEmpty⟩ := Node.ne_of_isOperator known
              cases rest with
              | nil =>
                  have atTop : top = true := by simpa using several
                  simp [Shape.forms, Form.shape, atTop, known, notEmpty]
              | cons next rest =>
                  rw [Shape.forms, Form.shapes] at later
                  simp [Shape.forms, Form.shape, notMarker,
                    (List.cons.inj later).1, (List.cons.inj later).2]
          | none =>
              have first := induction head List.mem_cons_self
              have shown : (top || !(Shape.forms rest).isEmpty) = true := by
                rcases several with atTop | more
                · simp [atTop]
                · cases rest with
                  | nil => simp at more
                  | cons next rest => simp [Shape.forms]
              simp [Form.shape, shown, first, later]

/-! ## Forms of formulas -/

/-- A form in which operators and the marker of lists alone have operands. -/
inductive Form.Formed : Form → Prop where
  | node {token : String} {operands : List Form}
      (head : operands = [] ∨ Node.isOperator token = true ∨
        token = Node.listMarker)
      (below : ∀ operand ∈ operands, Formed operand) :
      Formed (.node token operands)

namespace Form.Formed

/-- What a form shows is settled, unless it is a name at the root. -/
theorem settled_shape {form : Form} (formed : form.Formed) (top : Bool)
    (notName : top = true → form.isName = false) :
    (form.shape top).Settled top := by
  induction formed generalizing top with
  | @node token operands head below induction =>
      have each : ∀ item ∈ Form.shapes operands, item.Settled false := by
        rw [Form.shapes_eq_map]
        intro item member
        obtain ⟨operand, position, rfl⟩ := List.mem_map.mp member
        exact induction operand position false (by simp)
      match operands with
      | [] =>
          rw [Form.shape]
          by_cases empty : token = Node.emptyList
          · rw [if_pos empty]
            exact .compound (.inr (by simp)) (by simp)
          · rw [if_neg empty]
            cases top with
            | false => exact .atom empty
            | true =>
                have operator : Node.isOperator token = true := by
                  simpa [Form.isName, empty] using notName rfl
                simp only [operator, Bool.and_true, if_true]
                refine .compound (.inl rfl) ?_
                intro item member
                obtain rfl := List.mem_singleton.mp member
                exact .atom empty
      | first :: rest =>
          rw [Form.shape]
          by_cases marker : token = Node.listMarker
          · rw [if_pos marker]
            cases shown : top || !rest.isEmpty with
            | true =>
                refine .compound ?_ each
                cases top with
                | true => exact .inl rfl
                | false =>
                    cases rest with
                    | nil => cases shown
                    | cons next rest => exact .inr (by simp [Form.shapes])
            | false =>
                have notTop : top = false := by
                  cases top with
                  | false => rfl
                  | true => cases shown
                rw [notTop]
                exact each _ List.mem_cons_self
          · rw [if_neg marker]
            have operator : Node.isOperator token = true := by
              simpa [marker] using head
            refine .compound (.inr (by simp)) ?_
            intro item member
            rcases List.mem_cons.mp member with rfl | later
            · exact .atom (Node.ne_of_isOperator operator).2
            · exact each item later

end Form.Formed

/-! ## Reading back what a form shows -/

namespace Form

/-- The form that is read from what a form shows. -/
def reread (top : Bool) (form : Form) : Form := (form.shape top).form

theorem reread_childless (top : Bool) (token : String) :
    (Form.node token []).reread top = .node token [] := by
  unfold reread
  by_cases empty : token = Node.emptyList
  · simp [shape, empty, Shape.form]
  · cases top <;> cases operator : Node.isOperator token <;>
      simp [shape, empty, operator, Shape.form, Shape.forms, Shape.operator?]

theorem reread_operator {token : String}
    (operator : Node.isOperator token = true) (top : Bool)
    (operands : List Form) :
    (Form.node token operands).reread top =
      .node token (operands.map (reread false)) := by
  cases operands with
  | nil => exact reread_childless top token
  | cons first rest =>
      simp [reread, shape, (Node.ne_of_isOperator operator).1, Shape.form,
        Shape.operator?, operator, Shape.forms, Shape.forms_eq_map,
        shapes_eq_map, Function.comp_def]

theorem reread_single (form : Form) :
    (Form.node Node.listMarker [form]).reread false = form.reread false := by
  simp [reread, shape]

theorem reread_list {top : Bool} {first : Form} {rest : List Form}
    (shown : top = true ∨ rest ≠ []) :
    (Form.node Node.listMarker (first :: rest)).reread top =
      match (first.shape false).operator? with
      | some operator => .node operator (rest.map (reread false))
      | none =>
          .node Node.listMarker ((first :: rest).map (reread false)) := by
  have brackets : (top || !rest.isEmpty) = true := by simpa using shown
  simp [reread, shape, brackets, Shape.form, Shape.forms_eq_map,
    shapes_eq_map, Function.comp_def]
  rfl

theorem operator?_shape_childless {form : Form}
    (childless : form.operands = [])
    (operator : Node.isOperator form.token = true) :
    (form.shape false).operator? = some form.token := by
  match form with
  | .node token [] =>
      have known : Node.isOperator token = true := operator
      simp [shape, (Node.ne_of_isOperator known).2, Shape.operator?, known,
        Form.token]
  | .node token (first :: rest) => cases childless

/-- A form that is read back as it is: below the root no list has one item
only, and no list starts with an operator that would become its head. -/
inductive Faithful : (top : Bool) → Form → Prop where
  | node {top : Bool} {token : String} {operands : List Form}
      (single : token = Node.listMarker → operands.length = 1 → top = true)
      (head : token = Node.listMarker → ∀ first ∈ operands.head?,
        first.operands = [] → Node.isOperator first.token = false)
      (below : ∀ operand ∈ operands, Faithful false operand) :
      Faithful top (.node token operands)

theorem faithful_node_iff {top : Bool} {token : String}
    {operands : List Form} :
    (Form.node token operands).Faithful top ↔
      (token = Node.listMarker → operands.length = 1 → top = true) ∧
      (token = Node.listMarker → ∀ first ∈ operands.head?,
        first.operands = [] → Node.isOperator first.token = false) ∧
      ∀ operand ∈ operands, operand.Faithful false := by
  constructor
  · intro faithful
    cases faithful with
    | node single head below => exact ⟨single, head, below⟩
  · intro ⟨single, head, below⟩
    exact .node single head below

mutual

/-- The number of nodes of a form. -/
def size : Form → Nat
  | .node _ operands => sizes operands + 1

def sizes : List Form → Nat
  | [] => 0
  | form :: forms => form.size + sizes forms

end

theorem sizes_map_le {change : Form → Form} {forms : List Form}
    (each : ∀ form ∈ forms, (change form).size ≤ form.size) :
    sizes (forms.map change) ≤ sizes forms := by
  induction forms with
  | nil => exact Nat.le_refl _
  | cons form forms induction =>
      rw [List.forall_mem_cons] at each
      exact Nat.add_le_add each.1 (induction each.2)

namespace Formed

theorem cases_head {token : String} {operands : List Form}
    (formed : (Form.node token operands).Formed) :
    operands = [] ∨ Node.isOperator token = true ∨
      token = Node.listMarker ∧ ∃ first rest, operands = first :: rest := by
  cases formed with
  | node head _ =>
      cases operands with
      | nil => exact .inl rfl
      | cons first rest =>
          rcases head with nothing | operator | marker
          · cases nothing
          · exact .inr (.inl operator)
          · exact .inr (.inr ⟨marker, first, rest, rfl⟩)

theorem size_reread_le {form : Form} (formed : form.Formed) (top : Bool) :
    (form.reread top).size ≤ form.size := by
  induction formed generalizing top with
  | @node token operands head below induction =>
      have each : sizes (operands.map (reread false)) ≤ sizes operands :=
        sizes_map_le fun operand member => induction operand member false
      rcases cases_head (.node head below) with
        rfl | operator | ⟨rfl, first, rest, rfl⟩
      · exact Nat.le_of_eq (congrArg size (reread_childless top token))
      · rw [reread_operator operator]
        exact Nat.succ_le_succ each
      · by_cases shown : top = true ∨ rest ≠ []
        · rw [reread_list shown]
          cases (first.shape false).operator? with
          | none => exact Nat.succ_le_succ each
          | some operator =>
              have later : sizes (rest.map (reread false)) ≤ sizes rest :=
                sizes_map_le fun operand member => induction operand
                  (List.mem_cons_of_mem first member) false
              simp only [size, sizes]
              omega
        · have alone : top = false ∧ rest = [] := by simpa using shown
          obtain ⟨rfl, rfl⟩ := alone
          rw [reread_single]
          have part := induction first List.mem_cons_self false
          simp only [size, sizes]
          omega

theorem faithful_of_reread {form : Form} (formed : form.Formed) (top : Bool)
    (same : form.reread top = form) : form.Faithful top := by
  induction formed generalizing top with
  | @node token operands head below induction =>
      have fixed : operands.map (reread false) = operands →
          ∀ operand ∈ operands, operand.Faithful false := by
        intro mapped operand member
        apply induction operand member
        exact List.map_inj_left.mp (mapped.trans (List.map_id _).symm)
          operand member
      rcases cases_head (.node head below) with
        rfl | operator | ⟨rfl, first, rest, rfl⟩
      · exact .node (by simp) (by simp) (by simp)
      · have notMarker := (Node.ne_of_isOperator operator).1
        rw [reread_operator operator] at same
        injection same with _ mapped
        exact .node (fun marker => absurd marker notMarker)
          (fun marker => absurd marker notMarker) (fixed mapped)
      · by_cases shown : top = true ∨ rest ≠ []
        · rw [reread_list shown] at same
          cases found : (first.shape false).operator? with
          | some operator =>
              rw [found] at same
              obtain ⟨_, known⟩ := Shape.operator?_eq_some_iff.mp found
              injection same with token _
              exact absurd token (Node.ne_of_isOperator known).1
          | none =>
              rw [found] at same
              injection same with _ mapped
              refine .node ?_ ?_ (fixed mapped)
              · intro _ alone
                rcases shown with atTop | more
                · exact atTop
                · exact absurd (List.length_eq_zero_iff.mp
                    (Nat.succ.inj alone)) more
              · intro _ other position childless
                obtain rfl := Option.some.inj position
                by_contra known
                rw [Bool.not_eq_false] at known
                rw [operator?_shape_childless childless known] at found
                cases found
        · -- A list of one item below the root is read back as the item.
          have alone : top = false ∧ rest = [] := by simpa using shown
          obtain ⟨rfl, rfl⟩ := alone
          have part := (below first List.mem_cons_self).size_reread_le false
          rw [reread_single] at same
          rw [same] at part
          simp only [size, sizes] at part
          omega

theorem reread_of_faithful {form : Form} (formed : form.Formed) {top : Bool}
    (faithful : form.Faithful top) : form.reread top = form := by
  induction formed generalizing top with
  | @node token operands head below induction =>
      cases faithful with
      | node single starts operandsFaithful =>
          have fixed : operands.map (reread false) = operands := by
            calc
              operands.map (reread false) = operands.map id :=
                List.map_congr_left fun operand member =>
                  induction operand member (operandsFaithful operand member)
              _ = operands := List.map_id operands
          rcases cases_head (.node head below) with
            rfl | operator | ⟨rfl, first, rest, rfl⟩
          · exact reread_childless top token
          · rw [reread_operator operator, fixed]
          · have shown : top = true ∨ rest ≠ [] := by
              by_cases alone : rest = []
              · exact .inl (single rfl (by simp [alone]))
              · exact .inr alone
            have notOperator : (first.shape false).operator? = none := by
              cases found : (first.shape false).operator? with
              | none => rfl
              | some operator =>
                  -- The first item would be read back as the operator.
                  obtain ⟨atom, known⟩ :=
                    Shape.operator?_eq_some_iff.mp found
                  have back : first.reread false = .node operator [] := by
                    rw [reread, atom, Shape.form]
                  have firstFixed := (List.cons.inj fixed).1
                  rw [back] at firstFixed
                  subst firstFixed
                  have other : Node.isOperator operator = false :=
                    starts rfl _ rfl rfl
                  rw [other] at known
                  cases known
            rw [reread_list shown, notOperator, fixed]

theorem reread_eq_iff {form : Form} (formed : form.Formed) (top : Bool) :
    form.reread top = form ↔ form.Faithful top :=
  ⟨formed.faithful_of_reread top, formed.reread_of_faithful⟩

end Formed

end Form

end FormulaEdit
