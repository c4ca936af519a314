import FormulaEdit.Proofs.Sexpr.Reading
import FormulaEdit.Proofs.Tree
import FormulaEdit.Render
import Mathlib.Data.List.Forall2

/-!
# The text of a tree

The text of a tree is put together from the texts of its operands, without
slots and without a table of finished texts.  It spells the lexemes of the
expressions that the tree shows: brackets that a node leaves out let its
elements stand among those of the node above.
-/

namespace FormulaEdit

namespace Label

/-- The text of a node without mark and line break, from the texts of its
operands.  `top` says that it is the root. -/
def bareText (label : Label) (top : Bool) (parts : List String) : String :=
  if parts.isEmpty then
    if top && label.bracketed && Node.isOperator label.token then
      Layout.bracket label.token
    else label.token
  else
    let elements :=
      if label.token == Node.listMarker then parts else label.token :: parts
    let text := " ".intercalate elements
    if label.bracketed && (elements.length != 1 || top) then
      Layout.bracket text
    else text

/-- The line break in front of a node at a depth. -/
def lead (label : Label) (layout : Layout) (depth : Nat) : String :=
  if label.breaksLine then
    "\n" ++ String.join (List.replicate depth layout.indent)
  else ""

/-- The text of a node from the texts of its operands. -/
def text (label : Label) (layout : Layout) (top : Bool) (depth : Nat)
    (parts : List String) : String :=
  let bare := label.bareText top parts
  label.lead layout depth ++
    if label.id = layout.highlight then
      Layout.highlightOpen ++ bare ++ Layout.highlightClose
    else bare

end Label

namespace Tree

mutual

/-- The text of a tree whose root stands at a depth. -/
def text (layout : Layout) (top : Bool) (depth : Nat) : Tree → String
  | .node label operands =>
      label.text layout top depth (texts layout (depth + 1) operands)

/-- The texts of operands. -/
def texts (layout : Layout) (depth : Nat) : List Tree → List String
  | [] => []
  | tree :: trees => tree.text layout false depth :: texts layout depth trees

end

theorem texts_eq_map (layout : Layout) (depth : Nat) (trees : List Tree) :
    texts layout depth trees = trees.map (text layout false depth) := by
  induction trees with
  | nil => rfl
  | cons tree trees induction => rw [texts, induction, List.map_cons]

end Tree

/-! ## What a text spells -/

namespace Sexpr

/-- A text that the reader takes for one atom. -/
def IsAtom (token : String) : Prop :=
  ∃ span, lexemes token.toList = .ok [.atom token span]

theorem isAtom_iff {token : String} :
    IsAtom token ↔ token.toList ≠ [] ∧ Units token.toList := by
  have single : IsAtom token ↔ Spells [.atom token] token.toList := by
    rw [← lexemes_eq_ok_iff]
    constructor
    · intro ⟨span, split⟩
      exact ⟨_, split, rfl⟩
    · intro ⟨found, split, tokens⟩
      obtain ⟨lexeme, rest, shape, isAtom, nothing⟩ :=
        List.map_eq_cons_iff.mp tokens
      have alone : rest = [] := List.map_eq_nil_iff.mp nothing
      subst shape alone
      cases lexeme with
      | opening => cases isAtom
      | closing => cases isAtom
      | atom text span =>
          cases isAtom
          exact ⟨span, split⟩
  rw [single]
  constructor
  · intro spells
    obtain ⟨lead, _, _, whole, word, rest, name, nonempty, units, _, rfl, _⟩ :=
      spells.exists_lead
    -- The word is the whole text, so nothing is left on its two sides.
    have same : token.toList = word := by rw [name, String.toList_ofList]
    rw [same]
    exact ⟨nonempty, units⟩
  · intro ⟨nonempty, units⟩
    have ends : Ends [] := trivial
    have spells := Spells.atom nonempty units ends .nil
    rwa [String.ofList_toList, List.append_nil] at spells

theorem not_isAtom_emptyList : ¬IsAtom Node.emptyList := by
  intro isAtom
  exact absurd (isAtom_iff.mp isAtom).2.head (by decide)

/-- A text that spells expressions in front of whatever cannot go on with an
atom. -/
def Spelled (shapes : List Shape) (text : String) : Prop :=
  ∀ tokens rest, Ends rest → Spells tokens rest →
    Spells (Shape.tokensAll shapes ++ tokens) (text.toList ++ rest)

namespace Spelled

theorem atom {token : String} (isAtom : IsAtom token) :
    Spelled [.atom token] token := by
  intro tokens rest ends later
  obtain ⟨nonempty, units⟩ := isAtom_iff.mp isAtom
  have spells := Spells.atom nonempty units ends later
  rwa [String.ofList_toList] at spells

theorem nil : Spelled [] "" := by
  intro tokens rest _ later
  exact later

theorem bracket {shapes : List Shape} {text : String}
    (spelled : Spelled shapes text) :
    Spelled [.compound shapes] (Layout.bracket text) := by
  intro tokens rest _ later
  have closed : Spells (Shape.tokensAll shapes ++ .closing :: tokens)
      (text.toList ++ ')' :: rest) := by
    apply spelled
    · exact .inr (.inr rfl)
    · exact .closing later
  simpa [Layout.bracket, Shape.tokensAll, Shape.tokens] using
    Spells.opening closed

theorem blank_append {shapes : List Shape} {gap text : String}
    (blank : Blank gap.toList) (spelled : Spelled shapes text) :
    Spelled shapes (gap ++ text) := by
  intro tokens rest ends later
  rw [String.toList_append, List.append_assoc]
  apply Spells.append_blank blank
  exact spelled tokens rest ends later

theorem joined {parts : List (List Shape)} {texts : List String}
    (each : List.Forall₂ Spelled parts texts) :
    Spelled parts.flatten (" ".intercalate texts) := by
  induction each with
  | nil => exact nil
  | @cons part text parts texts first others induction =>
      intro tokens rest ends later
      cases others with
      | nil =>
          simpa using first tokens rest ends later
      | @cons next nextText parts texts _ _ =>
          have space : Text.isBlank ' ' = true := by decide
          have spaced := first _ (' ' :: _) (delimits_of_blank space)
            (.blank space (induction tokens rest ends later))
          rw [String.intercalate_cons_cons, List.flatten_cons,
            Shape.tokensAll_append]
          simpa using spaced

theorem spells {shape : Shape} {text : String}
    (spelled : Spelled [shape] text) : Spells shape.tokens text.toList := by
  have alone := spelled [] [] trivial .nil
  simpa [Shape.tokensAll] using alone

end Spelled

end Sexpr

open Sexpr (Shape IsAtom Spelled Blank)

/-! ## The expressions that a tree shows -/

namespace Label

/-- The expressions that a node shows, from those of its operands. -/
def shapes (label : Label) (top : Bool) (parts : List (List Shape)) :
    List Shape :=
  if parts.isEmpty then
    if label.token = Node.emptyList then [.compound []]
    else if top && label.bracketed && Node.isOperator label.token then
      [.compound [.atom label.token]]
    else [.atom label.token]
  else
    let elements :=
      if label.token == Node.listMarker then parts
      else [.atom label.token] :: parts
    if label.bracketed && (elements.length != 1 || top) then
      [.compound elements.flatten]
    else elements.flatten

/-- A token that can be read again: an atom, or the empty compound where a
node has no operands. -/
def Readable (label : Label) (childless : Prop) : Prop :=
  IsAtom label.token ∨ label.token = Node.emptyList ∧ childless

theorem bareText_spelled {label : Label} {parts : List (List Shape)}
    {texts : List String} (readable : label.Readable (texts = []))
    (each : List.Forall₂ Spelled parts texts) (top : Bool) :
    Spelled (label.shapes top parts) (label.bareText top texts) := by
  have sameLength := each.length_eq
  cases each with
  | nil =>
      rcases readable with isAtom | ⟨empty, _⟩
      · have notEmpty : label.token ≠ Node.emptyList := by
          intro same
          rw [same] at isAtom
          exact Sexpr.not_isAtom_emptyList isAtom
        simp only [shapes, bareText, List.isEmpty_nil, if_true, notEmpty,
          if_false]
        split
        · exact (Spelled.atom isAtom).bracket
        · exact .atom isAtom
      · have notOperator : Node.isOperator Node.emptyList = false := by decide
        have spelled : Spelled [.compound []] Node.emptyList :=
          Spelled.nil.bracket
        simpa [shapes, bareText, empty, notOperator] using spelled
  | @cons part text parts texts first others =>
      have isAtom : IsAtom label.token := by
        rcases readable with isAtom | ⟨_, childless⟩
        · exact isAtom
        · cases childless
      simp only [shapes, bareText, List.isEmpty_cons, Bool.false_eq_true,
        if_false]
      cases label.token == Node.listMarker with
      | true =>
          have spelled := Spelled.joined (.cons first others)
          simp only [if_true, sameLength]
          split
          · exact spelled.bracket
          · exact spelled
      | false =>
          have spelled := Spelled.joined
            (.cons (.atom isAtom) (.cons first others))
          simp only [Bool.false_eq_true, if_false, List.length_cons,
            others.length_eq]
          split
          · exact spelled.bracket
          · exact spelled

theorem lead_blank {label : Label} {layout : Layout}
    (blank : Blank layout.indent.toList) (depth : Nat) :
    Blank (label.lead layout depth).toList := by
  unfold lead
  split
  · rw [String.toList_append, String.toList_join]
    apply Blank.append
    · decide
    · intro c member
      simp only [List.mem_flatMap, List.mem_replicate] at member
      obtain ⟨_, ⟨_, rfl⟩, inside⟩ := member
      exact blank c inside
  · exact Sexpr.blank_nil

end Label

namespace Tree

mutual

/-- The expressions that a tree shows. -/
def shapes (top : Bool) : Tree → List Shape
  | .node label operands => label.shapes top (shapesAll operands)

/-- The expressions that each of some operands shows. -/
def shapesAll : List Tree → List (List Shape)
  | [] => []
  | tree :: trees => tree.shapes false :: shapesAll trees

end

theorem shapesAll_eq_map (trees : List Tree) :
    shapesAll trees = trees.map (shapes false) := by
  induction trees with
  | nil => rfl
  | cons tree trees induction => rw [shapesAll, induction, List.map_cons]

/-- A property of a node and its operands, everywhere in a tree. -/
inductive Every (property : Label → List Tree → Prop) : Tree → Prop where
  | node {label : Label} {operands : List Tree}
      (here : property label operands)
      (below : ∀ operand ∈ operands, Every property operand) :
      Every property (.node label operands)

namespace Every

variable {property : Label → List Tree → Prop} {label : Label}
  {operands : List Tree}

theorem root (every : Every property (.node label operands)) :
    property label operands := by
  cases every with
  | node here _ => exact here

theorem operand (every : Every property (.node label operands)) :
    ∀ operand ∈ operands, Every property operand := by
  cases every with
  | node _ below => exact below

theorem of_plug {context : Context} {tree : Tree}
    (every : (context.plug tree).Every property) : tree.Every property := by
  induction context generalizing tree with
  | nil => exact every
  | cons frame outer induction =>
      have filled := induction every
      exact filled.operand tree (by simp)

/-- A property holds everywhere when it holds of the filling of every
context. -/
theorem of_contexts {tree : Tree}
    (each : ∀ (context : Context) label operands,
      tree = context.plug (.node label operands) → property label operands) :
    tree.Every property := by
  induction tree with
  | node label operands induction =>
      refine .node (each [] label operands rfl) ?_
      intro operand member
      apply induction operand member
      intro context inner below equality
      obtain ⟨before, after, split⟩ := List.append_of_mem member
      apply each (context ++ [⟨label, before, after⟩])
      rw [Context.plug_append, ← equality]
      simp [Frame.fill, split]

end Every

/-- The text of a tree spells the expressions that the tree shows. -/
theorem text_spelled {layout : Layout} (blank : Blank layout.indent.toList)
    {tree : Tree} (readable : tree.Every fun label operands =>
      label.Readable (operands = []) ∧ label.id ≠ layout.highlight)
    (top : Bool) (depth : Nat) :
    Spelled (tree.shapes top) (tree.text layout top depth) := by
  induction tree generalizing top depth with
  | node label operands induction =>
      have each : List.Forall₂ Spelled (shapesAll operands)
          (texts layout (depth + 1) operands) := by
        rw [shapesAll_eq_map, texts_eq_map, List.forall₂_map_left_iff,
          List.forall₂_map_right_iff, List.forall₂_same]
        intro operand member
        exact induction operand member (readable.operand operand member)
          false (depth + 1)
      obtain ⟨token, unmarked⟩ := readable.root
      have childless : operands = [] ↔
          texts layout (depth + 1) operands = [] := by
        rw [texts_eq_map, List.map_eq_nil_iff]
      rw [childless] at token
      rw [shapes, text, Label.text, if_neg unmarked]
      apply Spelled.blank_append (label.lead_blank blank depth)
      exact Label.bareText_spelled token each top

end Tree

end FormulaEdit
