import FormulaEdit.Proofs.Arena.Cursor
import FormulaEdit.Proofs.Arena.Rendering

/-!
# Highlighting

A mark is put around the text of one node before its line break goes in front,
and the nodes above go on with the marked text like with any other: they look
at the number of their parts and never into them.  So on the way from the
marked node to the top, a text is added before and a text behind, and both are
the same with and without the mark.
-/

namespace FormulaEdit

/-! ## The text around a part -/

theorem exists_intercalate_around (separator : String)
    (before after : List String) :
    ∃ lead tail, ∀ part,
      separator.intercalate (before ++ part :: after) =
        lead ++ part ++ tail := by
  induction before with
  | nil =>
      by_cases last : after = []
      · exact ⟨"", "", by simp [last]⟩
      · refine ⟨"", separator ++ separator.intercalate after, ?_⟩
        intro part
        rw [List.nil_append, String.intercalate_cons_of_ne_nil last,
          String.empty_append, String.append_assoc]
  | cons first before induction =>
      obtain ⟨lead, tail, around⟩ := induction
      refine ⟨first ++ separator ++ lead, tail, ?_⟩
      intro part
      rw [List.cons_append, String.intercalate_cons_of_ne_nil (by simp),
        around]
      simp only [String.append_assoc]

namespace Label

/-- Which elements a node joins and whether it puts brackets around them is
settled by the number of its parts. -/
theorem exists_bareText_eq (label : Label) (top : Bool)
    (before after : List String) :
    ∃ (others : List String) (enclosed : Bool), ∀ part,
      label.bareText top (before ++ part :: after) =
        let text := " ".intercalate (others ++ part :: after)
        if enclosed then Layout.bracket text else text := by
  let others := if label.token == Node.listMarker then before
    else label.token :: before
  refine ⟨others, label.bracketed &&
    (others.length + (after.length + 1) != 1 || top), ?_⟩
  intro part
  have filled : (before ++ part :: after).isEmpty = false := by simp
  have elements : (if label.token == Node.listMarker then
        before ++ part :: after
      else label.token :: (before ++ part :: after)) =
      others ++ part :: after := by
    simp only [others]
    split <;> rfl
  simp only [bareText, filled, Bool.false_eq_true, if_false, elements,
    List.length_append, List.length_cons]

theorem exists_bareText_around (label : Label) (top : Bool)
    (before after : List String) :
    ∃ lead tail, ∀ part,
      label.bareText top (before ++ part :: after) = lead ++ part ++ tail := by
  obtain ⟨others, enclosed, shape⟩ :=
    label.exists_bareText_eq top before after
  obtain ⟨lead, tail, around⟩ := exists_intercalate_around " " others after
  cases enclosed with
  | true =>
      refine ⟨"(" ++ lead, tail ++ ")", ?_⟩
      intro part
      rw [shape, around, if_pos rfl, Layout.bracket]
      simp only [String.append_assoc]
  | false =>
      refine ⟨lead, tail, ?_⟩
      intro part
      rw [shape, around, if_neg Bool.false_ne_true]

end Label

/-! ## Marks outside a tree -/

section Marks

variable {indent : String} {plain marked : Int}

theorem Label.text_of_ne {label : Label} (plainOutside : label.id ≠ plain)
    (markedOutside : label.id ≠ marked) (top : Bool) (depth : Nat)
    (parts : List String) :
    label.text ⟨indent, plain⟩ top depth parts =
      label.text ⟨indent, marked⟩ top depth parts := by
  rw [text, text, if_neg plainOutside, if_neg markedOutside]
  rfl

mutual

theorem Tree.text_of_not_mem {tree : Tree} (plainOutside : plain ∉ tree.ids)
    (markedOutside : marked ∉ tree.ids) (top : Bool) (depth : Nat) :
    tree.text ⟨indent, plain⟩ top depth =
      tree.text ⟨indent, marked⟩ top depth := by
  cases tree with
  | node label operands =>
      rw [ids_node, List.mem_cons, not_or] at plainOutside markedOutside
      rw [text, text,
        texts_of_not_mem plainOutside.2 markedOutside.2 (depth + 1),
        Label.text_of_ne (Ne.symm plainOutside.1) (Ne.symm markedOutside.1)]

theorem Tree.texts_of_not_mem {trees : List Tree}
    (plainOutside : plain ∉ idsAll trees)
    (markedOutside : marked ∉ idsAll trees) (depth : Nat) :
    texts ⟨indent, plain⟩ depth trees = texts ⟨indent, marked⟩ depth trees := by
  cases trees with
  | nil => rfl
  | cons tree trees =>
      rw [idsAll_cons, List.mem_append, not_or] at plainOutside markedOutside
      rw [texts, texts, tree.text_of_not_mem plainOutside.1 markedOutside.1,
        texts_of_not_mem plainOutside.2 markedOutside.2]

end

/-- A node writes a text before and a text behind one of its operands.  They are
the same for all marks that are not outside this operand. -/
theorem Frame.exists_text_around {frame : Frame} (outer : Context)
    (plainOutside : plain ∉ Context.ids (frame :: outer)) (top : Bool)
    (depth : Nat) (tree : Tree) :
    ∃ lead tail, ∀ mark ∉ Context.ids (frame :: outer),
      (frame.fill tree).text ⟨indent, mark⟩ top depth =
        lead ++ tree.text ⟨indent, mark⟩ false (depth + 1) ++ tail := by
  simp only [Context.ids_cons, List.cons_append, List.mem_cons,
    List.mem_append, not_or] at plainOutside ⊢
  obtain ⟨plainLabel, ⟨plainBefore, plainAfter⟩, _⟩ := plainOutside
  obtain ⟨lead, tail, around⟩ := frame.label.exists_bareText_around top
    (Tree.texts ⟨indent, plain⟩ (depth + 1) frame.before)
    (Tree.texts ⟨indent, plain⟩ (depth + 1) frame.after)
  refine ⟨frame.label.lead ⟨indent, plain⟩ depth ++ lead, tail, ?_⟩
  rintro mark ⟨markLabel, ⟨markBefore, markAfter⟩, _⟩
  have parts : Tree.texts ⟨indent, mark⟩ (depth + 1)
      (frame.before ++ tree :: frame.after) =
        Tree.texts ⟨indent, plain⟩ (depth + 1) frame.before ++
          tree.text ⟨indent, mark⟩ false (depth + 1) ::
            Tree.texts ⟨indent, plain⟩ (depth + 1) frame.after := by
    rw [Tree.texts_of_not_mem plainBefore markBefore,
      Tree.texts_of_not_mem plainAfter markAfter]
    simp only [Tree.texts_eq_map, List.map_append, List.map_cons]
  rw [fill, Tree.text, parts,
    Label.text_of_ne (Ne.symm markLabel) (Ne.symm plainLabel), Label.text,
    if_neg (Ne.symm plainLabel), around]
  simp only [String.append_assoc]

/-- The same of all nodes on the way to the top.  The induction goes from the
hole outwards, one node at a time. -/
theorem Context.exists_text_around {context : Context}
    (plainOutside : plain ∉ context.ids) (top : Bool) (depth : Nat)
    (tree : Tree) :
    ∃ lead tail, ∀ mark ∉ context.ids,
      (context.plug tree).text ⟨indent, mark⟩ top depth =
        lead ++ tree.text ⟨indent, mark⟩ (top && context.isEmpty)
          (depth + context.length) ++ tail := by
  induction context generalizing tree with
  | nil => exact ⟨"", "", by simp⟩
  | cons frame outer induction =>
      obtain ⟨innerLead, innerTail, inner⟩ := Frame.exists_text_around outer
        plainOutside (top && outer.isEmpty) (depth + outer.length) tree
      have notAbove : ∀ {mark}, mark ∉ Context.ids (frame :: outer) →
          mark ∉ Context.ids outer := by
        intro mark outside
        rw [ids_cons, List.mem_append, not_or] at outside
        exact outside.2
      obtain ⟨lead, tail, around⟩ :=
        induction (notAbove plainOutside) (frame.fill tree)
      refine ⟨lead ++ innerLead, innerTail ++ tail, ?_⟩
      intro mark outside
      rw [plug_cons, around mark (notAbove outside), inner mark outside,
        List.isEmpty_cons, Bool.and_false, List.length_cons, Nat.add_assoc]
      simp only [String.append_assoc]

/-- The mark of a node stands behind its line break and around all the rest of
its text. -/
theorem Tree.text_marked {label : Label} {operands : List Tree}
    (distinct : (Tree.node label operands).ids.Nodup)
    (plainOutside : plain ∉ (Tree.node label operands).ids) (top : Bool)
    (depth : Nat) :
    ∃ inner,
      (Tree.node label operands).text ⟨indent, plain⟩ top depth =
        label.lead ⟨indent, plain⟩ depth ++ inner ∧
      (Tree.node label operands).text ⟨indent, label.id⟩ top depth =
        label.lead ⟨indent, plain⟩ depth ++
          (Layout.highlightOpen ++ inner ++ Layout.highlightClose) := by
  rw [ids_node, List.nodup_cons] at distinct
  rw [ids_node, List.mem_cons, not_or] at plainOutside
  refine ⟨label.bareText top (texts ⟨indent, plain⟩ (depth + 1) operands),
    ?_, ?_⟩
  · rw [text, Label.text, if_neg (Ne.symm plainOutside.1)]
  · rw [text, Label.text, if_pos rfl,
      texts_of_not_mem distinct.1 plainOutside.2]
    rfl

end Marks

/-! ## Highlighting in an arena -/

/-- The line break in front of the text of a node at a depth. -/
def Node.breakBefore (node : Node) (indent : String) (depth : Nat) : String :=
  if node.breaksLine then
    "\n" ++ String.join (List.replicate depth indent)
  else ""

namespace Arena

/-- An id is that of a node or of one of its descendants. -/
def InSubtree (arena : Arena) : (top id : Int) → Prop :=
  Relation.ReflTransGen arena.IsParent

theorem Holds.mem_ids_iff {arena : Arena} (linked : arena.Linked)
    {parent : Int} {label : Label} {operands : List Tree}
    (holds : arena.Holds parent (.node label operands)) {id : Int} :
    id ∈ (Tree.node label operands).ids ↔ arena.InSubtree label.id id := by
  rw [InSubtree, Relation.reflTransGen_iff_eq_or_transGen, Tree.ids_node,
    List.mem_cons]
  constructor
  · rintro (same | below)
    · exact .inl same
    · exact .inr (holds.above below)
  · rintro (same | above)
    · exact .inl same
    · exact .inr (holds.mem_of_above linked above)

/-- In a checked arena, rendering with a mark of a node in the subtree inserts
one pair of tags into the text without the mark: right around what the marked
node renders to, less its own line break.  Any other mark changes nothing. -/
theorem highlighting_inserts_one_wrapper {arena : Arena}
    (valid : arena.validate = .ok ()) {node : Node}
    (member : node ∈ arena.liveNodes) (indent : String) (highlight : Int) :
    (arena.InSubtree node.id highlight →
      ∃ target depth before inner after,
        arena.live? highlight = some target ∧
        arena.depth target = .ok depth ∧
        arena.renderNode { indent } target =
          .ok (target.breakBefore indent depth ++ inner) ∧
        arena.renderNode { indent } node = .ok (before ++ inner ++ after) ∧
        arena.renderNode { indent, highlight } node =
          .ok (before ++ Layout.highlightOpen ++ inner ++
            Layout.highlightClose ++ after)) ∧
    (¬arena.InSubtree node.id highlight →
      ∃ text, arena.renderNode { indent } node = .ok text ∧
        arena.renderNode { indent, highlight } node = .ok text) := by
  obtain ⟨tree, presents⟩ := validate_eq_ok_iff.mp valid
  have linked := presents.linked
  obtain ⟨outer, label, operands, rfl, here, shape⟩ :=
    presents.exists_plug (linked.live_of_mem member)
  have holds := (holds_plug_iff.mp presents.holds).2
  have distinct := (Context.nodup_plug_iff.mp presents.distinct).1
  have rendered : ∀ layout, arena.renderNode layout node = .ok
      ((Tree.node label operands).text layout outer.isEmpty outer.length) := by
    intro layout
    rw [shape]
    exact presents.renderNode_eq layout
  have unmarked : (-1 : Int) ∉ (Tree.node label operands).ids := by
    intro inside
    obtain ⟨found, live⟩ := holds.live_of_mem inside
    exact live?_ne_noParent live rfl
  rw [← here, ← holds.mem_ids_iff linked]
  constructor
  · intro inside
    obtain ⟨context, ⟨target, below⟩, split, rfl⟩ := Tree.exists_plug inside
    rw [split] at distinct unmarked rendered
    obtain ⟨distinctBelow, _, apart⟩ := Context.nodup_plug_iff.mp distinct
    rw [Context.mem_ids_plug, not_or] at unmarked
    have whole : arena.Unfolds
        (Context.plug (context ++ outer) (.node target below)) := by
      rw [Context.plug_append, ← split]
      exact presents.toUnfolds
    -- The depth and the place of the marked node, seen from the whole arena.
    have top : (outer.isEmpty && context.isEmpty) =
        (context ++ outer).isEmpty := by
      cases context <;> simp
    have deep : outer.length + context.length = (context ++ outer).length := by
      rw [List.length_append, Nat.add_comm]
    obtain ⟨lead, tail, around⟩ := Context.exists_text_around unmarked.2
      outer.isEmpty outer.length (.node target below)
    have plainText := around (-1) unmarked.2
    have markedText := around target.id (apart _ (Tree.id_mem_ids _))
    obtain ⟨inner, plainPart, markedPart⟩ := Tree.text_marked distinctBelow
      unmarked.1 (context ++ outer).isEmpty (context ++ outer).length
    rw [top, deep, plainPart] at plainText
    rw [top, deep, markedPart] at markedText
    refine ⟨_, (context ++ outer).length,
      lead ++ target.lead ⟨indent, -1⟩ (context ++ outer).length, inner, tail,
      (holds_plug_iff.mp whole.holds).2.root_live, whole.depth_eq rfl,
      ?_, ?_, ?_⟩
    · rw [whole.renderNode_eq, plainPart]
      rfl
    · rw [rendered, plainText]
      simp only [String.append_assoc]
    · rw [rendered, Tree.id_node, markedText]
      simp only [String.append_assoc]
  · intro outside
    refine ⟨_, rendered _, ?_⟩
    rw [rendered, Tree.text_of_not_mem unmarked outside]

/-- A disjunction on a line of its own is marked in the text of the negation
above it; a mark of the root, which is above both, is not seen there. -/
theorem highlighting_inserts_one_wrapper_negation :
    ∃ (arena : Arena) (node : Node) (before inner after : String),
      arena.validate = .ok () ∧ node ∈ arena.liveNodes ∧
      arena.InSubtree node.id 3 ∧
      arena.renderNode { indent := "  " } node =
        .ok (before ++ inner ++ after) ∧
      arena.renderNode { indent := "  ", highlight := 3 } node =
        .ok (before ++ Layout.highlightOpen ++ inner ++
          Layout.highlightClose ++ after) ∧
      arena.renderNode { indent := "  ", highlight := 3 } node =
        .ok "(not \n    <span class=\"highlighted\">(or x y)</span>)" ∧
      ¬arena.InSubtree node.id 0 ∧
      ∃ text, arena.renderNode { indent := "  " } node = .ok text ∧
        arena.renderNode { indent := "  ", highlight := 0 } node =
          .ok text := by
  let negation : Node := { id := 2, token := "not", parent := 0, children := [3] }
  let disjunction : Node :=
    { id := 3, token := "or", parent := 2, children := [4, 5]
      breaksLine := true }
  let arena : Arena :=
    { slots := #[
        { id := 0, token := "and", children := [1, 2] },
        { id := 1, token := "p", parent := 0 },
        negation,
        disjunction,
        { id := 4, token := "x", parent := 3 },
        { id := 5, token := "y", parent := 3 }]
      root := 0 }
  have valid : arena.validate = .ok () := rfl
  have member : negation ∈ arena.liveNodes := by decide
  have inside : arena.InSubtree negation.id 3 :=
    .single ⟨negation, disjunction, rfl, rfl, rfl⟩
  have outside : ¬arena.InSubtree negation.id 0 := by
    intro below
    rcases Relation.ReflTransGen.cases_tail below with
      same | ⟨above, _, parent, root, parentLive, rootLive, up⟩
    · cases same
    · cases rootLive
      exact live?_ne_noParent parentLive up.symm
  obtain ⟨_, _, before, inner, after, _, _, _, plain, marked⟩ :=
    (highlighting_inserts_one_wrapper valid member "  " 3).1 inside
  exact ⟨arena, negation, before, inner, after, valid, member, inside, plain,
    marked, rfl, outside,
    (highlighting_inserts_one_wrapper valid member "  " 0).2 outside⟩

end Arena

end FormulaEdit
