import FormulaEdit.Proofs.Tree.Form

/-!
# Negation normal form

A chain of negations above a core counts only by its parity, and one negation
above a strict comparison turns the comparison around.  The normal form follows
from this at every node.

Squashing is not confluent: in `(not (not (< a b)))` a squash of the inner
negation leaves `(not (>= a b))`, which is stuck and not the normal form.  A
cancellation keeps the normal form everywhere; an absorption keeps it only where
the negation is not itself negated, which is what `normal_plug` asks of the
context.
-/

namespace FormulaEdit

namespace Form

/-- The number of negations with an operand that stand above the core. -/
def negations : Form → Nat
  | .node _ [] => 0
  | .node token (operand :: _) =>
      if token = "not" then operand.negations + 1 else 0

/-- What is below the chain of negations; a bare negation is no part of it. -/
def core : Form → Form
  | .node token [] => .node token []
  | .node token (operand :: rest) =>
      if token = "not" then operand.core else .node token (operand :: rest)

/-- A strict comparison is turned around, anything else is put under a
negation. -/
def negated : Form → Form
  | .node token operands =>
      if token = "<" then .node ">=" operands
      else if token = ">" then .node "<=" operands
      else .node "not" [.node token operands]

def negatedBy (count : Nat) (form : Form) : Form :=
  if count % 2 = 0 then form else form.negated

theorem sizeOf_core_le (form : Form) : sizeOf form.core ≤ sizeOf form := by
  fun_induction core form with
  | case1 token => exact Nat.le_refl _
  | case2 operand rest below =>
      simp only [Form.node.sizeOf_spec, List.cons.sizeOf_spec]
      omega
  | case3 token operand rest other => exact Nat.le_refl _

theorem sizeOf_operand_lt {form operand : Form}
    (member : operand ∈ form.core.operands) : sizeOf operand < sizeOf form := by
  have smaller := form.sizeOf_core_le
  cases whole : form.core with
  | node token operands =>
      rw [whole] at smaller member
      have inside := List.sizeOf_lt_of_mem (show operand ∈ operands from member)
      rw [Form.node.sizeOf_spec] at smaller
      omega

/-- The negation normal form. -/
def normal (form : Form) : Form :=
  Form.negatedBy form.negations (.node form.core.token
    (form.core.operands.attach.map fun operand => operand.val.normal))
termination_by form
decreasing_by exact sizeOf_operand_lt operand.property

/-- The normal form of a form below some further negations. -/
def normalBelow (above : Nat) (form : Form) : Form :=
  Form.negatedBy (above + form.negations)
    (.node form.core.token (form.core.operands.map normal))

theorem normal_eq (form : Form) : form.normal = form.normalBelow 0 := by
  have operands : form.core.operands.attach.map (fun operand =>
      operand.val.normal) = form.core.operands.map normal :=
    List.attach_map_val
  rw [normal, normalBelow, Nat.zero_add, operands]

theorem normalBelow_not (above : Nat) (operand : Form) (rest : List Form) :
    (Form.node "not" (operand :: rest)).normalBelow above =
      operand.normalBelow (above + 1) := by
  simp only [normalBelow, negations, core, if_true]
  rw [Nat.add_right_comm, Nat.add_assoc]

theorem normalBelow_add_two (above : Nat) (form : Form) :
    form.normalBelow (above + 2) = form.normalBelow above := by
  have parity : (above + 2 + form.negations) % 2 =
      (above + form.negations) % 2 := by omega
  rw [normalBelow, normalBelow, negatedBy, negatedBy, parity]

theorem normalBelow_core {token : String} {operands : List Form}
    (bare : token = "not" → operands = []) (above : Nat) :
    (Form.node token operands).normalBelow above =
      Form.negatedBy above (.node token (operands.map normal)) := by
  have shape : (Form.node token operands).core = .node token operands ∧
      (Form.node token operands).negations = 0 := by
    cases operands with
    | nil => exact ⟨rfl, rfl⟩
    | cons operand rest =>
        have other : token ≠ "not" := fun same => by cases bare same
        simp [core, negations, other]
  rw [normalBelow, shape.1, shape.2, Nat.add_zero]
  rfl

end Form

open Form

namespace Tree

theorem normalBelow_fill {frame : Frame} {old new : Tree}
    (same : ∀ above, old.form.normalBelow above = new.form.normalBelow above)
    (above : Nat) :
    (frame.fill old).form.normalBelow above =
      (frame.fill new).form.normalBelow above := by
  have sameNormal : old.form.normal = new.form.normal := by
    rw [normal_eq, normal_eq, same]
  simp only [Frame.fill, form_node, List.map_append, List.map_cons]
  by_cases negation : frame.label.token = "not"
  · rw [negation]
    cases frame.before with
    | nil =>
        simp only [List.map_nil, List.nil_append]
        rw [normalBelow_not, normalBelow_not, same]
    | cons first before =>
        simp only [List.map_cons, List.cons_append]
        rw [normalBelow_not, normalBelow_not]
  · rw [normalBelow_core (absurd · negation), normalBelow_core (absurd · negation)]
    simp only [List.map_append, List.map_cons, sameNormal]

/-- What has the same normal form below any number of negations can be
exchanged anywhere. -/
theorem normalBelow_plug {context : Context} {old new : Tree}
    (same : ∀ above, old.form.normalBelow above = new.form.normalBelow above)
    (above : Nat) :
    (context.plug old).form.normalBelow above =
      (context.plug new).form.normalBelow above := by
  induction context generalizing old new with
  | nil => exact same above
  | cons frame outer induction => exact induction (normalBelow_fill same)

theorem normal_plug {context : Context} {old new : Tree}
    (same : old.form.normal = new.form.normal)
    (apart : ∀ frame ∈ context.head?, frame.label.token ≠ "not") :
    (context.plug old).form.normal = (context.plug new).form.normal := by
  cases context with
  | nil => exact same
  | cons frame outer =>
      have notNegation := apart frame rfl
      have filled : ∀ above, (frame.fill old).form.normalBelow above =
          (frame.fill new).form.normalBelow above := by
        intro above
        simp only [Frame.fill, form_node]
        rw [normalBelow_core (absurd · notNegation),
          normalBelow_core (absurd · notNegation)]
        simp only [List.map_append, List.map_cons, same]
      rw [normal_eq, normal_eq]
      exact normalBelow_plug filled 0

/-- A negation that can be squashed: into the negation below it, if that has
an operand, or into a strict comparison. -/
def Squashable (label : Label) (operands : List Tree) : Prop :=
  label.token = "not" ∧ ∃ inner rest, operands = inner :: rest ∧
    (inner.label.token = "not" ∧ inner.operands ≠ [] ∨
      inner.label.token = "<" ∨ inner.label.token = ">")

/-- Where nothing can be squashed, a tree is in normal form. -/
theorem normal_eq_self {tree : Tree}
    (every : tree.Every fun label operands =>
      (label.token = "not" → operands.length ≤ 1) ∧
        ¬Squashable label operands) :
    tree.form.normal = tree.form := by
  induction tree with
  | node label operands induction =>
      obtain ⟨single, settled⟩ := every.root
      have below : (operands.map form).map normal = operands.map form := by
        rw [List.map_map]
        apply List.map_congr_left
        intro operand member
        exact induction operand member (every.operand operand member)
      rw [form_node, normal_eq]
      by_cases negation : label.token = "not" ∧ operands ≠ []
      · obtain ⟨token, nonempty⟩ := negation
        obtain ⟨inner, rest, rfl⟩ := List.exists_cons_of_ne_nil nonempty
        obtain rfl : rest = [] := by
          have short := single token
          rw [List.length_cons] at short
          exact List.eq_nil_of_length_eq_zero (by omega)
        obtain ⟨innerLabel, innerOperands⟩ := inner
        have stuck : ¬(innerLabel.token = "not" ∧ innerOperands ≠ [] ∨
            innerLabel.token = "<" ∨ innerLabel.token = ">") := by
          intro fires
          exact settled ⟨token, _, _, rfl, fires⟩
        rw [not_or, not_or] at stuck
        obtain ⟨notDouble, notLess, notGreater⟩ := stuck
        have bare : innerLabel.token = "not" →
            innerOperands.map form = [] := by
          intro double
          by_contra more
          exact notDouble ⟨double, fun none => more (by rw [none]; rfl)⟩
        have same := induction _ List.mem_cons_self
          (every.operand _ List.mem_cons_self)
        rw [form_node, normal_eq, normalBelow_core bare] at same
        have innerSame : Form.node innerLabel.token
            ((innerOperands.map form).map normal) =
              .node innerLabel.token (innerOperands.map form) := same
        rw [token, List.map_cons, List.map_nil, normalBelow_not, form_node,
          normalBelow_core bare, innerSame]
        simp [negatedBy, negated, notLess, notGreater]
      · have bare : label.token = "not" → operands.map form = [] := by
          intro token
          by_contra more
          exact negation ⟨token, fun none => more (by rw [none]; rfl)⟩
        rw [normalBelow_core bare, below]
        rfl

/-- Negations have at most one operand, and ids grow downwards. -/
structure Tidy (label : Label) (operands : List Tree) : Prop where
  single : label.token = "not" → operands.length ≤ 1
  ordered : ∀ operand ∈ operands, label.id < operand.id

theorem Tidy.swap {label : Label} {before after : List Tree} {old new : Tree}
    (tidy : Tidy label (before ++ old :: after)) (later : old.id ≤ new.id) :
    Tidy label (before ++ new :: after) := by
  constructor
  · intro negation
    simpa using tidy.single negation
  · intro operand member
    rw [List.mem_append, List.mem_cons] at member
    rcases member with first | rfl | last
    · exact tidy.ordered operand (by simp [first])
    · have above := tidy.ordered old (by simp)
      omega
    · exact tidy.ordered operand (by simp [last])

theorem tidy_plug {context : Context} {old new : Tree}
    (tidy : (context.plug old).Every Tidy) (newTidy : new.Every Tidy)
    (later : old.id ≤ new.id) : (context.plug new).Every Tidy := by
  induction context generalizing old new with
  | nil => exact newTidy
  | cons frame outer induction =>
      have filled : (frame.fill old).Every Tidy := Every.of_plug tidy
      apply induction tidy
      · apply Every.node (filled.root.swap later)
        intro operand member
        rw [List.mem_append, List.mem_cons] at member
        rcases member with first | rfl | last
        · exact filled.operand operand (by simp [first])
        · exact newTidy
        · exact filled.operand operand (by simp [last])
      · exact Int.le_refl _

theorem ordered_of_pairwise {tree : Tree}
    (sorted : tree.ids.Pairwise (· < ·)) :
    tree.Every fun label operands =>
      ∀ operand ∈ operands, label.id < operand.id := by
  induction tree with
  | node label operands induction =>
      rw [ids_node, List.pairwise_cons] at sorted
      obtain ⟨below, others⟩ := sorted
      constructor
      · intro operand member
        apply below
        exact mem_idsAll.mpr ⟨operand, member, operand.id_mem_ids⟩
      · intro operand member
        apply induction operand member
        rw [idsAll_eq_flatMap, List.pairwise_flatMap] at others
        exact others.1 operand member

theorem ordered_ofExpr (id : Nat) (expr : Sexpr.Expr) :
    (ofExpr id expr).Every fun label operands =>
      ∀ operand ∈ operands, label.id < operand.id :=
  ordered_of_pairwise (pairwise_ids_ofExpr id expr)

end Tree

/-- What a change by a squash makes of a tree that is tidy. -/
structure Squash (before after : Tree) : Prop where
  tidy : after.Every Tree.Tidy
  normal : after.form.normal = before.form.normal
  fewer : after.ids.length < before.ids.length

theorem Squash.cancel {context : Context} {outer inner : Label} {heir : Tree}
    (tidy : (context.plug (.node outer [.node inner [heir]])).Every Tree.Tidy)
    (outerToken : outer.token = "not") (innerToken : inner.token = "not") :
    Squash (context.plug (.node outer [.node inner [heir]]))
      (context.plug heir) := by
  have outerTidy := Tree.Every.of_plug tidy
  have innerTidy := outerTidy.operand _ List.mem_cons_self
  have outerInner := outerTidy.root.ordered _ List.mem_cons_self
  have innerHeir := innerTidy.root.ordered _ List.mem_cons_self
  rw [Tree.id_node] at outerInner
  refine
    { tidy := Tree.tidy_plug tidy (innerTidy.operand _ List.mem_cons_self) ?_
      normal := ?_
      fewer := ?_ }
  · rw [Tree.id_node]
    omega
  · rw [Form.normal_eq, Form.normal_eq]
    symm
    apply Tree.normalBelow_plug
    intro above
    rw [Tree.form_node, outerToken, List.map_cons, normalBelow_not,
      Tree.form_node, innerToken, List.map_cons, normalBelow_not]
    exact normalBelow_add_two above heir.form
  · rw [(Context.ids_plug _ _).length_eq, (Context.ids_plug _ _).length_eq]
    simp only [Tree.ids_node, Tree.idsAll_cons, Tree.idsAll_nil,
      List.length_append, List.length_cons, List.length_nil]
    omega

theorem Squash.absorb {context : Context} {outer inner : Label}
    {token : String} {operands : List Tree}
    (tidy : (context.plug (.node outer [.node inner operands])).Every
      Tree.Tidy)
    (outerToken : outer.token = "not")
    (opposite : inner.token = "<" ∧ token = ">=" ∨
      inner.token = ">" ∧ token = "<=")
    (apart : ∀ frame ∈ context.head?, frame.label.token ≠ "not") :
    Squash (context.plug (.node outer [.node inner operands]))
      (context.plug (.node { inner with token := token } operands)) := by
  have outerTidy := Tree.Every.of_plug tidy
  have innerTidy := outerTidy.operand _ List.mem_cons_self
  have outerInner := outerTidy.root.ordered _ List.mem_cons_self
  have comparison : inner.token ≠ "not" ∧ token ≠ "not" := by
    rcases opposite with ⟨old, new⟩ | ⟨old, new⟩
    · rw [old, new]
      decide
    · rw [old, new]
      decide
  refine
    { tidy := Tree.tidy_plug tidy ?_ (Int.le_of_lt outerInner)
      normal := (Tree.normal_plug ?_ apart).symm
      fewer := ?_ }
  · constructor
    · constructor
      · intro negation
        exact absurd negation comparison.2
      · exact innerTidy.root.ordered
    · exact innerTidy.operand
  · rw [Form.normal_eq, Form.normal_eq, Tree.form_node, outerToken,
      List.map_cons, normalBelow_not, Tree.form_node, Tree.form_node,
      normalBelow_core (absurd · comparison.1),
      normalBelow_core (absurd · comparison.2)]
    rcases opposite with ⟨old, rfl⟩ | ⟨old, rfl⟩
    · simp [negatedBy, negated, old]
    · simp [negatedBy, negated, old]
  · rw [(Context.ids_plug _ _).length_eq, (Context.ids_plug _ _).length_eq]
    simp only [Tree.ids_node, Tree.idsAll_cons, Tree.idsAll_nil,
      List.length_append, List.length_cons, List.length_nil]
    omega

end FormulaEdit
