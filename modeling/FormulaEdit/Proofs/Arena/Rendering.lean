import FormulaEdit.Proofs.Arena.Editing
import FormulaEdit.Proofs.Tree.Text

/-!
# Rendering an arena

The walk takes a node from the stack, puts its children above it and closes it
when it comes back to it.  In between the table of finished texts is as it was,
with the texts of the children entered in front, and afterwards with the text
of the tree below the node.  So the rendering of every node of an arena that
unfolds to a tree succeeds and is the text of the tree below the node.
-/

namespace FormulaEdit

theorem Context.id_plug_mem_ids {context : Context} (tree : Tree)
    (below : context ≠ []) : (context.plug tree).id ∈ context.ids := by
  induction context generalizing tree with
  | nil => exact absurd rfl below
  | cons frame outer induction =>
      rw [plug_cons, ids_cons, List.cons_append, List.mem_cons,
        List.mem_append]
      cases outer with
      | nil => exact .inl rfl
      | cons next outer =>
          exact .inr (.inr (induction (frame.fill tree) (by simp)))

namespace Arena

/-! ## The table of finished texts -/

namespace Finished

theorem filter_eq_self_of_fresh {finished : Finished} {id : Int}
    (fresh : id ∉ finished.map Prod.fst) :
    finished.filter (·.1 != id) = finished := by
  rw [List.filter_eq_self]
  intro entry member
  rw [bne_iff_ne]
  intro same
  exact fresh (List.mem_map.mpr ⟨entry, member, same⟩)

theorem lookup_append_of_fresh {before after : Finished} {id : Int}
    (fresh : id ∉ before.map Prod.fst) :
    (before ++ after).lookup id = after.lookup id := by
  induction before with
  | nil => rfl
  | cons entry before induction =>
      rw [List.map_cons, List.mem_cons, not_or] at fresh
      have different : (id == entry.1) = false := by simpa using fresh.1
      rw [List.cons_append, List.lookup_cons, different]
      exact induction fresh.2

theorem takeAll_reverse_append {entries finished : Finished}
    (distinct : (entries.map Prod.fst).Nodup)
    (fresh : ∀ id ∈ entries.map Prod.fst, id ∉ finished.map Prod.fst) :
    takeAll (entries.reverse ++ finished) (entries.map Prod.fst) =
      .ok (entries.map Prod.snd, finished) := by
  induction entries with
  | nil => rfl
  | cons entry entries induction =>
      rw [List.map_cons, List.nodup_cons] at distinct
      rw [List.map_cons, List.forall_mem_cons] at fresh
      have later : entry.1 ∉ entries.reverse.map Prod.fst := by
        rw [List.map_reverse, List.mem_reverse]
        exact distinct.1
      have found :
          (entries.reverse ++ entry :: finished).lookup entry.1 =
            some entry.2 := by
        rw [lookup_append_of_fresh later, List.lookup_cons_self]
      have rest :
          (entries.reverse ++ entry :: finished).filter (·.1 != entry.1) =
            entries.reverse ++ finished := by
        rw [List.filter_append, filter_eq_self_of_fresh later,
          List.filter_cons, if_neg (by simp),
          filter_eq_self_of_fresh fresh.1]
      simp only [List.reverse_cons, List.append_assoc, List.singleton_append,
        List.map_cons, takeAll, take, found, rest, bind, Except.bind,
        induction distinct.2 fresh.2]
      rfl

end Finished

/-! ## Finishing nodes -/

section Finishing

variable {arena : Arena} {layout : Layout} {context : Context}

theorem Unfolds.id_beq_root {tree : Tree}
    (unfolds : arena.Unfolds (context.plug tree)) :
    (tree.id == arena.root) = context.isEmpty := by
  rw [unfolds.root]
  cases context with
  | nil => simp
  | cons frame outer =>
      have outside := Context.id_plug_mem_ids tree (List.cons_ne_nil frame outer)
      have different : tree.id ≠ (Context.plug (frame :: outer) tree).id := by
        intro same
        rw [← same] at outside
        exact unfolds.apart tree.id tree.id_mem_ids outside
      simpa using different

theorem Unfolds.depth_eq {tree : Tree}
    (unfolds : arena.Unfolds (context.plug tree)) {node : Node}
    (up : node.parent = context.parent) :
    arena.depth node = .ok context.length := by
  have around := (holds_plug_iff.mp unfolds.holds).1
  have size := unfolds.holds.length_le_size unfolds.distinct
  have part := (Context.ids_plug context tree).length_eq
  have path := context.length_le_ids
  rw [List.length_append] at part
  apply depth_eq_ok_iff.mpr
  exact ⟨by omega, around.climbs up⟩

theorem Unfolds.nodeText_eq {label : Label} {operands : List Tree}
    (unfolds : arena.Unfolds (context.plug (.node label operands)))
    {parts : List String} (sameLength : parts.length = operands.length) :
    arena.nodeText layout
        (label.node context.parent (operands.map Tree.id)) parts =
      .ok (label.text layout context.isEmpty context.length parts) := by
  have childless : (operands.map Tree.id).isEmpty = parts.isEmpty := by
    rw [Bool.eq_iff_iff, List.isEmpty_iff_length_eq_zero,
      List.isEmpty_iff_length_eq_zero, List.length_map, sameLength]
  have bare : arena.bareText
        (label.node context.parent (operands.map Tree.id)) parts =
      label.bareText context.isEmpty parts := by
    have atRoot := unfolds.id_beq_root
    rw [Tree.id_node] at atRoot
    simp only [bareText, Label.bareText, Label.node, Node.isPlainList,
      childless, atRoot]
    cases parts with
    | nil => simp
    | cons part parts => cases label.bracketed <;> simp
  have depth := unfolds.depth_eq (label.parent_node context.parent
    (operands.map Tree.id))
  simp only [nodeText, bare, depth, Label.text, Label.lead, Label.id_node]
  cases breaks : label.breaksLine <;>
    simp [Label.node, breaks, bind, Except.bind, pure, Except.pure]

theorem nodesOf_eq {parent : Int} {operands : List Tree}
    (holds : ∀ operand ∈ operands, arena.Holds parent operand) :
    arena.nodesOf (operands.map Tree.id) =
      .ok (operands.map fun operand =>
        operand.label.node parent (operand.operands.map Tree.id)) := by
  induction operands with
  | nil => rfl
  | cons operand operands induction =>
      rw [List.forall_mem_cons] at holds
      simp only [List.map_cons, nodesOf, induction holds.2,
        node_of_live holds.1.root_live, bind, Except.bind]
      rfl

/-! The turns of the walk -/

theorem walk_nil (finished : Finished) :
    arena.walk layout [] finished = .ok finished := by
  rw [walk]

theorem walk_of_advance {task : Task} {rest pending : List Task}
    {finished done : Finished}
    (advanced : arena.advance layout task rest finished =
      .ok (pending, done)) :
    arena.walk layout (task :: rest) finished =
      arena.walk layout pending done := by
  rw [walk]
  split
  next failed => rw [advanced] at failed; cases failed
  next again => rw [advanced] at again; cases again; rfl

theorem walk_of_closed {task : Task} {rest : List Task}
    {finished done : Finished}
    (ready : task.expanded = true ∨ task.node.children = [])
    (closed : arena.close layout task.node finished = .ok done) :
    arena.walk layout (task :: rest) finished =
      arena.walk layout rest done := by
  apply walk_of_advance
  have closes : (task.expanded || task.node.children.isEmpty) = true := by
    rwa [Bool.or_eq_true, List.isEmpty_iff]
  rw [advance, if_pos closes, closed]
  rfl

theorem walk_of_expanded {node : Node} {children : List Node} {levels : Nat}
    {rest : List Task} {finished : Finished} (more : node.children ≠ [])
    (found : arena.nodesOf node.children = .ok children) :
    arena.walk layout ({ node, levels := levels + 1 } :: rest) finished =
      arena.walk layout
        ((children.map fun child => { node := child, levels : Task }) ++
          { node, levels := levels + 1, expanded := true } :: rest)
        finished := by
  apply walk_of_advance
  have waits : ¬(false || node.children.isEmpty) = true := by
    rwa [Bool.false_or, List.isEmpty_iff]
  rw [advance, if_neg waits]
  simp only [found]
  rfl

theorem walk_operands {levels : Nat} {operands : List Tree}
    {nodeOf : Tree → Node} {textOf : Tree → String}
    (each : ∀ operand ∈ operands, ∀ (rest : List Task) (finished : Finished),
      (∀ id ∈ operand.ids, id ∉ finished.map Prod.fst) →
      arena.walk layout ({ node := nodeOf operand, levels } :: rest)
          finished =
        arena.walk layout rest ((operand.id, textOf operand) :: finished))
    (distinct : (Tree.idsAll operands).Nodup) {rest : List Task}
    {finished : Finished}
    (fresh : ∀ id ∈ Tree.idsAll operands, id ∉ finished.map Prod.fst) :
    arena.walk layout
        (((operands.map nodeOf).map fun child =>
          { node := child, levels : Task }) ++ rest)
        finished =
      arena.walk layout rest ((operands.map fun operand =>
        (operand.id, textOf operand)).reverse ++ finished) := by
  induction operands generalizing finished with
  | nil => rfl
  | cons operand operands induction =>
      rw [List.forall_mem_cons] at each
      rw [Tree.idsAll_cons, List.nodup_append] at distinct
      rw [Tree.idsAll_cons, List.forall_mem_append] at fresh
      obtain ⟨_, laterDistinct, apart⟩ := distinct
      have laterFresh : ∀ id ∈ Tree.idsAll operands,
          id ∉ ((operand.id, textOf operand) :: finished).map Prod.fst := by
        intro id member again
        rcases List.mem_cons.mp again with same | old
        · exact apart operand.id operand.id_mem_ids id member same.symm
        · exact fresh.2 id member old
      rw [List.map_cons, List.map_cons, List.cons_append,
        each.1 _ finished fresh.1, induction each.2 laterDistinct laterFresh]
      simp

/-- A node is closed with the texts of its operands, which are taken out of
the table. -/
theorem Unfolds.close_eq {label : Label} {operands : List Tree}
    {finished : Finished}
    (unfolds : arena.Unfolds (context.plug (.node label operands)))
    (fresh : ∀ id ∈ (Tree.node label operands).ids,
      id ∉ finished.map Prod.fst) :
    arena.close layout (label.node context.parent (operands.map Tree.id))
        ((operands.map fun operand => (operand.id,
          operand.text layout false (context.length + 1))).reverse ++
          finished) =
      .ok ((label.id, (Tree.node label operands).text layout context.isEmpty
        context.length) :: finished) := by
  have distinct := (Context.nodup_plug_iff.mp unfolds.distinct).1
  rw [Tree.ids_node, List.nodup_cons] at distinct
  rw [Tree.ids_node, List.forall_mem_cons] at fresh
  let textOf := Tree.text layout false (context.length + 1)
  let entries := operands.map fun operand => (operand.id, textOf operand)
  have ids : entries.map Prod.fst = operands.map Tree.id := by
    simp [entries]
  have texts : entries.map Prod.snd =
      Tree.texts layout (context.length + 1) operands := by
    rw [Tree.texts_eq_map]
    simp [entries, textOf]
  have roots := Tree.map_id_sublist_idsAll operands
  have taken : Finished.takeAll (entries.reverse ++ finished)
      (operands.map Tree.id) =
        .ok (Tree.texts layout (context.length + 1) operands, finished) := by
    rw [← ids, ← texts]
    apply Finished.takeAll_reverse_append
    · rw [ids]
      exact distinct.2.sublist roots
    · intro id member
      rw [ids] at member
      exact fresh.2 id (roots.subset member)
  have sameLength :
      (Tree.texts layout (context.length + 1) operands).length =
        operands.length := by
    rw [Tree.texts_eq_map, List.length_map]
  have written : arena.nodeText layout _ _ = _ :=
    unfolds.nodeText_eq sameLength
  apply Result.bind_eq_ok_iff.mpr
  refine ⟨_, taken, ?_⟩
  apply Result.bind_eq_ok_iff.mpr
  refine ⟨_, written, ?_⟩
  show Except.ok (Finished.put finished label.id _) = _
  rw [Finished.put, Finished.filter_eq_self_of_fresh fresh.1]
  rfl

/-- The walk finishes a node with the text of the tree below it, and goes on
with the rest of the stack. -/
theorem Unfolds.walk_eq {tree : Tree} {levels : Nat} {rest : List Task}
    {finished : Finished} (unfolds : arena.Unfolds (context.plug tree))
    (enough : tree.ids.length ≤ levels)
    (fresh : ∀ id ∈ tree.ids, id ∉ finished.map Prod.fst) :
    arena.walk layout
        ({ node := tree.label.node context.parent (tree.operands.map Tree.id)
           levels } :: rest)
        finished =
      arena.walk layout rest
        ((tree.id, tree.text layout context.isEmpty context.length) ::
          finished) := by
  induction tree generalizing context levels finished rest with
  | node label operands induction =>
      have closed : arena.close layout _ _ = _ :=
        unfolds.close_eq fresh
      by_cases childless : operands = []
      · subst childless
        exact walk_of_closed (.inr rfl) closed
      have holds := (holds_plug_iff.mp unfolds.holds).2
      have distinct := (Context.nodup_plug_iff.mp unfolds.distinct).1
      rw [Tree.ids_node, List.nodup_cons] at distinct
      rw [Tree.ids_node, List.forall_mem_cons] at fresh
      rw [Tree.ids_node, List.length_cons] at enough
      obtain ⟨levels, rfl⟩ := Nat.exists_eq_succ_of_ne_zero
        (Nat.ne_of_gt (Nat.lt_of_lt_of_le (Nat.succ_pos _) enough))
      have each : ∀ operand ∈ operands, ∀ (rest : List Task)
          (finished : Finished),
          (∀ id ∈ operand.ids, id ∉ finished.map Prod.fst) →
          arena.walk layout
              ({ node := operand.label.node label.id
                   (operand.operands.map Tree.id), levels } :: rest)
              finished =
            arena.walk layout rest ((operand.id,
              operand.text layout false (context.length + 1)) ::
                finished) := by
        intro operand member rest table tableFresh
        obtain ⟨before, after, split⟩ := List.append_of_mem member
        have inner : arena.Unfolds
            (Context.plug (⟨label, before, after⟩ :: context) operand) := by
          rwa [Context.plug_cons, Frame.fill, ← split]
        have part : operand.ids.length ≤ levels := by
          rw [split] at enough
          simp only [Tree.idsAll_append, Tree.idsAll_cons,
            List.length_append] at enough
          omega
        exact induction operand member inner part tableFresh
      have more : (label.node context.parent
          (operands.map Tree.id)).children ≠ [] := by
        simpa using childless
      rw [Tree.label_node, Tree.operands_node,
        walk_of_expanded more (nodesOf_eq holds.operand_holds),
        walk_operands each distinct.2 fresh.2]
      exact walk_of_closed (.inl rfl) closed

end Finishing

theorem Unfolds.renderNode_eq {arena : Arena} {context : Context} {tree : Tree}
    (unfolds : arena.Unfolds (context.plug tree)) (layout : Layout) :
    arena.renderNode layout
        (tree.label.node context.parent (tree.operands.map Tree.id)) =
      .ok (tree.text layout context.isEmpty context.length) := by
  have enough : tree.ids.length ≤ arena.size + 1 := by
    have size := unfolds.holds.length_le_size unfolds.distinct
    have part := (Context.ids_plug context tree).length_eq
    rw [List.length_append] at part
    omega
  have found : Finished.take
      [(tree.id, tree.text layout context.isEmpty context.length)] tree.id =
        .ok (tree.text layout context.isEmpty context.length, []) := by
    simp [Finished.take]
  rw [renderNode, unfolds.walk_eq enough (by simp), walk_nil]
  apply Result.bind_eq_ok_iff.mpr
  refine ⟨_, rfl, ?_⟩
  apply Result.bind_eq_ok_iff.mpr
  exact ⟨_, found, rfl⟩

theorem Unfolds.rootNode_eq {arena : Arena} {tree : Tree}
    (unfolds : arena.Unfolds tree) : arena.rootNode =
      .ok (tree.label.node Node.noParent (tree.operands.map Tree.id)) := by
  rw [rootNode, unfolds.root]
  exact node_of_live unfolds.holds.root_live

/-- Rendering an arena gives the text of its tree. -/
theorem Unfolds.render_eq {arena : Arena} {tree : Tree}
    (unfolds : arena.Unfolds tree) (layout : Layout) :
    arena.render layout = .ok (tree.text layout true 0) := by
  have top : arena.Unfolds (Context.plug [] tree) := unfolds
  rw [render, unfolds.rootNode_eq]
  exact top.renderNode_eq layout

/-- In a checked arena the walk from any live node ends without a fault, and
gives what plain recursion over the tree below the node gives. -/
theorem walk_renders_tree_below {arena : Arena} (valid : arena.validate = .ok ())
    {node : Node} (member : node ∈ arena.liveNodes) (layout : Layout) :
    ∃ below depth, arena.unfold arena.size node.id = some below ∧
      arena.depth node = .ok depth ∧
      arena.renderNode layout node =
        .ok (below.text layout (node.id == arena.root) depth) := by
  obtain ⟨tree, presents⟩ := validate_eq_ok_iff.mp valid
  obtain ⟨context, label, operands, rfl, here, shape⟩ :=
    presents.exists_plug (presents.linked.live_of_mem member)
  have holds := (holds_plug_iff.mp presents.holds).2
  have distinct := (Context.nodup_plug_iff.mp presents.distinct).1
  refine ⟨.node label operands, context.length, ?_, ?_, ?_⟩
  · rw [← here]
    exact unfold_of_holds holds (holds.length_le_size distinct)
  · exact presents.depth_eq (by rw [shape]; rfl)
  · rw [← here, ← Tree.id_node label operands, presents.id_beq_root, shape]
    exact presents.renderNode_eq layout

/-- The ids of this arena do not grow downwards, and a slot of it is dead.  The
disjunction is marked and stands on a line of its own, one level down. -/
theorem walk_renders_tree_below_marked :
    ∃ (arena : Arena) (node : Node) (below : Tree),
      arena.validate = .ok () ∧ node ∈ arena.liveNodes ∧
      arena.unfold arena.size node.id = some below ∧
      arena.renderNode { indent := "  ", highlight := 1 } node =
        .ok (below.text { indent := "  ", highlight := 1 } false 1) ∧
      arena.renderNode { indent := "  ", highlight := 1 } node =
        .ok "\n  <span class=\"highlighted\">(or (f x) y)</span>" := by
  let arena : Arena :=
    { slots := #[
        { id := 0, token := "list", parent := 1, children := [6, 4] },
        { id := 1, token := "or", parent := 3, children := [0, 2]
          breaksLine := true },
        { id := 2, token := "y", parent := 1 },
        { id := 3, token := "and", children := [1] },
        { id := 4, token := "x", parent := 0 },
        .tombstone,
        { id := 6, token := "f", parent := 0 }]
      root := 3 }
  let node : Node :=
    { id := 1, token := "or", parent := 3, children := [0, 2]
      breaksLine := true }
  have valid : arena.validate = .ok () := rfl
  have member : node ∈ arena.liveNodes := by decide
  have deep : arena.depth node = .ok 1 := rfl
  obtain ⟨below, depth, unfolds, depth_eq, rendered⟩ :=
    walk_renders_tree_below valid member { indent := "  ", highlight := 1 }
  rw [deep] at depth_eq
  cases depth_eq
  exact ⟨arena, node, below, valid, member, unfolds, rendered, rfl⟩

end Arena

end FormulaEdit
