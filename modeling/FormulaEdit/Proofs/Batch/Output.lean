import FormulaEdit.Proofs.Batch.Crowding
import FormulaEdit.Proofs.Replay
import FormulaEdit.Proofs.Rule.LineBreaks
import FormulaEdit.Proofs.Rule.Rendering

/-!
# Batches as output

The formulas that a batch is replayed to are joined with blank lines, as they
were separated in the text.  The join is a batch of the same formulas just when
none of the resulting trees is crowded.  Without toggled line breaks none is.
-/

namespace FormulaEdit

open Batch (hasBlankLine)
open Sexpr (Spells Token)

/-! ## Shown tokens -/

theorem Sexpr.Spells.part_of_mem {tokens : List Token} {text : List Char}
    (spells : Spells tokens text) {name : String}
    (member : Token.atom name ∈ tokens) : name.toList <:+: text := by
  induction spells with
  | nil => cases member
  | @blank c _ rest _ _ induction =>
      exact (induction member).trans (List.suffix_cons c rest).isInfix
  | opening _ induction =>
      have later := induction (by simpa using member)
      exact later.trans (List.suffix_cons _ _).isInfix
  | closing _ induction =>
      have later := induction (by simpa using member)
      exact later.trans (List.suffix_cons _ _).isInfix
  | @atom word tokens rest _ _ _ _ induction =>
      rcases List.mem_cons.mp member with same | later
      · cases same
        rw [String.toList_ofList]
        exact (List.prefix_append word rest).isInfix
      · exact (induction later).trans (List.suffix_append word rest).isInfix

namespace Label

theorem shown_of_isAtom {label : Label} (isAtom : Sexpr.IsAtom label.token)
    (whole : hasBlankLine label.token.toList = false) : label.Shown := by
  obtain ⟨nonempty, units⟩ := Sexpr.isAtom_iff.mp isAtom
  refine ⟨nonempty, ?_, whole⟩
  intro c first
  obtain ⟨rest, isCons⟩ := List.head?_eq_some_iff.mp first
  rw [isCons] at units
  rw [Bool.eq_false_iff]
  intro blank
  exact units.head (.inl blank)

theorem shown_of_isOperator {label : Label}
    (operator : Node.isOperator label.token = true) : label.Shown := by
  apply shown_of_isAtom (Sexpr.isAtom_of_isOperator operator)
  have each : ∀ token ∈ Node.operators,
      hasBlankLine token.toList = false := by decide
  exact each label.token (List.contains_iff_mem.mp operator)

theorem shown_of_emptyList {label : Label}
    (empty : label.token = Node.emptyList) : label.Shown := by
  refine ⟨?_, ?_, ?_⟩
  · rw [empty]
    decide
  · rw [empty]
    intro c first
    cases first
    decide
  · rw [empty]
    decide

theorem Shown.of_token {label other : Label} (shown : label.Shown)
    (same : other.token = label.token) : other.Shown := by
  obtain ⟨nonempty, starts, whole⟩ := shown
  rw [← same] at nonempty starts whole
  exact ⟨nonempty, starts, whole⟩

end Label

namespace Arena

/-- Every live node has a token that can be shown. -/
def Shown (arena : Arena) : Prop :=
  ∀ id node, arena.live? id = some node → (Label.ofNode node).Shown

theorem shown_of_ofText {text : String} {arena : Arena}
    (whole : hasBlankLine text.toList = false)
    (read : ofText text = .ok arena) : arena.Shown := by
  unfold ofText at read
  split at read
  next expr found =>
    cases read
    have formula := Sexpr.readChars_eq_ok_iff.mp ⟨expr, found, rfl⟩
    have spells := (Sexpr.formula_iff_spells.mp formula).2
    have named : (Tree.ofExpr 0 expr).Every (Label.Fresh fun token =>
        Sexpr.IsAtom token ∧ hasBlankLine token.toList = false) := by
      apply Tree.fresh_ofExpr
      · exact ⟨Sexpr.isAtom_listMarker, by decide⟩
      · intro name member
        exact ⟨spells.isAtom_of_mem member,
          Batch.whole_of_part (spells.part_of_mem member) whole⟩
    intro id node live
    obtain ⟨context, label, operands, same, rfl, rfl⟩ :=
      (presents_ofExpr expr).exists_plug live
    rw [same] at named
    rw [Label.ofNode_node]
    rcases named.of_plug.root.token with ⟨isAtom, noLine⟩ | ⟨empty, _⟩
    · exact Label.shown_of_isAtom isAtom noLine
    · exact Label.shown_of_emptyList empty
  next => cases read

theorem unbroken_of_ofText {text : String} {arena : Arena}
    (read : ofText text = .ok arena) : arena.Unbroken := by
  obtain ⟨_, tree, _, readFrom⟩ := exists_formula_of_ofText read
  intro id node live
  obtain ⟨context, label, operands, rfl, rfl, rfl⟩ :=
    readFrom.toPresents.exists_plug live
  exact readFrom.asRead.of_plug.root.unbroken

end Arena

namespace Rule

theorem Edit.shown {arena edited : Arena} (edit : Edit arena edited)
    (wired : arena.Wired) (shown : arena.Shown) : edited.Shown := by
  intro id after live
  rcases edit.token wired live with operator | ⟨node, found, token, _⟩
  · exact Label.shown_of_isOperator operator
  · exact (shown id node found).of_token token

theorem Edits.shown {arena edited : Arena} (edits : Edits arena edited)
    (wired : arena.Wired) (shown : arena.Shown) : edited.Shown := by
  induction edits with
  | refl => exact shown
  | tail edits edit induction =>
      exact edit.shown (Edits.wired edits wired) induction

end Rule

/-! ## Replayed batches -/

namespace Batch

/-- Whether the tree of a formula is crowded after a replay. -/
def crowds (stack : Stack) (budget : Int) (formula : String) : Bool :=
  match Arena.ofText formula >>= stack.replay budget with
  | .ok result => result.tree?.any (Tree.crowded true)
  | .error _ => false

/-- Texts whose join is a batch of these texts. -/
def FoundAgain (texts : List String) : Prop :=
  split ("\n\n".intercalate texts) = texts.map Text.strip

instance : DecidablePred FoundAgain := fun texts =>
  inferInstanceAs (Decidable (split ("\n\n".intercalate texts) =
    texts.map Text.strip))

/-- Line breaks in front of all nodes at a depth. -/
def breaksAt (depth : Int) : Record :=
  { action := .toggleBreak
    condition := .both (.depthIs depth) (.flagIs .breaksLine false) }

variable {settings : Settings} {stack : Stack} {budget : Int}
  {formula rendered : String}

/-- What a formula is rendered as, from the tree that the replay leaves. -/
structure Replayed (settings : Settings) (stack : Stack) (budget : Int)
    (formula rendered : String) (tree : Tree) : Prop where
  crowds_eq : crowds stack budget formula = tree.crowded true
  text_eq : rendered = tree.text settings.layout true 0
  shown : tree.Every fun label _ => label.Shown ∧
    label.id ≠ settings.layout.highlight
  unbroken : (∀ record ∈ stack.records, record.action ≠ .toggleBreak) →
    tree.Every fun label _ => label.breaksLine = false

theorem exists_replayed (whole : hasBlankLine formula.toList = false)
    (untouched : ∀ record ∈ stack.records, record.action ≠ .replace)
    (ran : replayOne settings stack budget formula = .ok rendered) :
    ∃ tree, Replayed settings stack budget formula rendered tree := by
  obtain ⟨arena, read, rest⟩ := Result.bind_eq_ok_iff.mp ran
  obtain ⟨result, replayed, rendering⟩ := Result.bind_eq_ok_iff.mp rest
  have keeps : ∀ record ∈ stack.records,
      record.Keeps fun arena => arena.Wired ∧ arena.Shown := by
    intro record member arena node outcome ⟨wired, shown⟩ live ran _
    have edits := Rule.edits_of_run wired (wired.live_of_mem live)
      (untouched record member) ran
    exact ⟨edits.wired wired, edits.shown wired shown⟩
  obtain ⟨wired, shown⟩ := Stack.replay_keeps keeps
    ⟨Arena.wired_of_ofText read, Arena.shown_of_ofText whole read⟩ replayed
  obtain ⟨tree, unfolds⟩ := wired.exists_unfolds
  have text := unfolds.render_eq settings.layout
  rw [rendering] at text
  refine ⟨tree, ?_, ?_, ?_, ?_⟩
  · rw [crowds, read]
    show (match stack.replay budget arena with
      | .ok result => result.tree?.any (Tree.crowded true)
      | .error _ => false) = _
    rw [replayed]
    simp [unfolds.tree?_eq_some]
  · cases text
    rfl
  · apply unfolds.holds.every_live.mono
    intro label operands ⟨parent, live⟩
    have natural := (Arena.live?_bounds live).1
    have unmarked : label.id ≠ -1 := by omega
    exact ⟨shown label.id _ live, unmarked⟩
  · intro straight
    have unbroken : result.Unbroken := by
      apply Stack.replay_keeps _ (Arena.unbroken_of_ofText read) replayed
      intro record member arena node outcome unbroken _ ran _
      exact Action.unbroken_of_run (straight record member) ran unbroken
    apply unfolds.holds.every_live.mono
    intro label operands ⟨parent, live⟩
    exact unbroken label.id _ live

theorem forall_rendered_iff {maxSteps : Option Int} {text : String}
    {rendered : List String}
    (untouched : ∀ record ∈ stack.records, record.action ≠ .replace)
    (ran : replay settings stack maxSteps text = .ok rendered)
    {property source : String → Prop}
    (each : ∀ formula result tree, Replayed settings stack
      (maxSteps.getD settings.maxSteps) formula result tree →
      (property result ↔ source formula)) :
    (∀ result ∈ rendered, property result) ↔
      ∀ formula ∈ split text, source formula := by
  have whole : ∀ formula ∈ split text,
      hasBlankLine formula.toList = false :=
    fun _ member => hasBlankLine_of_mem_split member
  have results := Result.mapM_eq_ok_iff.mp ran
  generalize split text = formulas at whole results
  clear ran
  induction results with
  | nil => simp
  | @cons result formula results formulas one _ induction =>
      obtain ⟨wholeFirst, wholeOthers⟩ := List.forall_mem_cons.mp whole
      obtain ⟨tree, replayed⟩ := exists_replayed wholeFirst untouched one
      rw [List.forall_mem_cons, List.forall_mem_cons]
      exact and_congr (each formula result tree replayed)
        (induction wholeOthers)

namespace Replayed

variable {tree : Tree}

theorem visible
    (replayed : Replayed settings stack budget formula rendered tree) :
    ¬Sexpr.Blank rendered.toList := by
  rw [replayed.text_eq]
  exact tree.text_visible replayed.shown true 0

/-- Behind line breaks with spaces and tabs, a blank line is one of the
tree. -/
theorem hasBlankLine_eq
    (replayed : Replayed settings stack budget formula rendered tree)
    (gaps : tree.Every fun label _ => label.breaksLine = true →
      ∀ c ∈ settings.indent.toList, isGap c = true) :
    hasBlankLine (Text.strip rendered).toList = tree.crowded true := by
  rw [toList_strip, replayed.text_eq]
  exact Laid.hasBlankLine (tree.text_laidAs replayed.shown gaps true 0)

end Replayed

end Batch

open Batch (FoundAgain breaksAt)

/-- A batch that is replayed without replacements is found again in its output
just when no formula of the output has a blank line inside.  With spaces and
tabs as indentation, that is when no resulting tree is crowded; without toggled
line breaks it is always so. -/
theorem replayed_batch_found_again_iff {settings : Settings} {stack : Stack}
    {maxSteps : Option Int} {text : String} {rendered : List String}
    (untouched : ∀ record ∈ stack.records, record.action ≠ .replace)
    (ran : Batch.replay settings stack maxSteps text = .ok rendered) :
    (FoundAgain rendered ↔ ∀ formula ∈ rendered,
      hasBlankLine (Text.strip formula).toList = false) ∧
    ((∀ c ∈ settings.indent.toList, Batch.isGap c = true) →
      (FoundAgain rendered ↔ ∀ formula ∈ Batch.split text,
        Batch.crowds stack (maxSteps.getD settings.maxSteps) formula =
          false)) ∧
    ((∀ record ∈ stack.records, record.action ≠ .toggleBreak) →
      FoundAgain rendered) := by
  have visible : ∀ formula ∈ rendered, ¬Sexpr.Blank formula.toList := by
    refine (Batch.forall_rendered_iff untouched ran ?_).mpr fun _ _ => trivial
    exact fun _ _ _ replayed => iff_of_true replayed.visible trivial
  have found : FoundAgain rendered ↔ ∀ formula ∈ rendered,
      hasBlankLine (Text.strip formula).toList = false :=
    Batch.split_joined_iff visible
  refine ⟨found, ?_, ?_⟩
  · intro gaps
    rw [found]
    apply Batch.forall_rendered_iff untouched ran
    intro formula result tree replayed
    rw [replayed.crowds_eq, replayed.hasBlankLine_eq]
    apply replayed.shown.mono
    exact fun _ _ _ _ => gaps
  · intro straight
    rw [found]
    refine (Batch.forall_rendered_iff untouched ran ?_).mpr fun _ _ => trivial
    intro formula result tree replayed
    refine iff_of_true ?_ trivial
    have unbroken := replayed.unbroken straight
    rw [replayed.hasBlankLine_eq]
    · exact (Tree.crowded_of_unbroken unbroken true).2
    · apply unbroken.mono
      intro label _ here breaks
      rw [here] at breaks
      cases breaks

/-- A literal may have a line break of its own, and each operand may start a
line. -/
theorem replayed_batch_found_again_iff_literal :
    (∀ record ∈ [breaksAt 1], record.action ≠ .replace) ∧
    Batch.replay {} ⟨[breaksAt 1]⟩ none
        "(and \"p\n q\" (f x))\r\n \t\n(or x y)" =
      .ok ["(and \n\t\"p\n q\" \n\t(f x))", "(or \n\tx \n\ty)"] ∧
    FoundAgain ["(and \n\t\"p\n q\" \n\t(f x))", "(or \n\tx \n\ty)"] := by
  have untouched : ∀ record ∈ [breaksAt 1], record.action ≠ .replace := by
    decide
  have ran : Batch.replay {} ⟨[breaksAt 1]⟩ none
      "(and \"p\n q\" (f x))\r\n \t\n(or x y)" =
      .ok ["(and \n\t\"p\n q\" \n\t(f x))", "(or \n\tx \n\ty)"] :=
    Result.toOption_eq_some_iff.mp (by decide +kernel)
  refine ⟨untouched, ran, ?_⟩
  obtain ⟨_, found, _⟩ := replayed_batch_found_again_iff untouched ran
  apply (found (List.all_eq_true.mp (by decide))).mpr
  decide +kernel

/-- In `(and (x) y)` the brackets of the inner list are not shown.  With line
breaks in front of it and of its only element, the output falls into two
texts. -/
theorem nested_breaks_split_formula :
    Batch.replay {} ⟨[breaksAt 1, breaksAt 2]⟩ none "(and (x) y)\n" =
      .ok ["(and \n\t\n\t\tx \n\ty)"] ∧
    (∀ record ∈ [breaksAt 1, breaksAt 2], record.action ≠ .replace) ∧
    Batch.split "(and \n\t\n\t\tx \n\ty)" = ["(and", "x \n\ty)"] ∧
    ¬FoundAgain ["(and \n\t\n\t\tx \n\ty)"] := by
  refine ⟨Result.toOption_eq_some_iff.mp ?_, by decide, ?_, ?_⟩
  · decide +kernel
  · decide +kernel
  · decide +kernel

end FormulaEdit
