import FormulaEdit.Proofs.Rule.InPlace

/-!
# Replacing inside tokens

A replacement goes over all slots and changes tokens only.  The arena then
presents the tree with the same replacement made in its tokens.
-/

namespace FormulaEdit.Rule

namespace Replacement

theorem onNode_eq_ok {replacement : Replacement} {node updated : Node}
    {flag : Bool} (live : node.isLive = true)
    (ran : replacement.onNode node = .ok (flag, updated)) :
    ∃ token,
      replacement.tokenAfter node.token node.children.isEmpty = .ok token ∧
      updated = { node with token := token } := by
  unfold onNode at ran
  cases plain : node.isPlainList with
  | true =>
      simp only [live, plain, Bool.not_true, Bool.or_true, if_true,
        Except.ok.injEq, Prod.mk.injEq] at ran
      refine ⟨node.token, ?_, ran.2.symm⟩
      rw [Node.isPlainList] at plain
      rw [tokenAfter, plain, if_pos rfl]
  | false =>
      simp only [live, plain, Bool.not_true, Bool.or_false, if_false,
        Bool.false_eq_true] at ran
      obtain ⟨text, applied, rest⟩ := Result.bind_eq_ok_iff.mp ran
      split at rest
      · cases rest
        refine ⟨String.ofList text, ?_, rfl⟩
        rw [Node.isPlainList] at plain
        rw [tokenAfter, plain, if_neg Bool.false_ne_true]
        exact Result.map_eq_ok_iff.mpr ⟨text, applied, rfl⟩
      · cases rest

theorem onNodes_eq_ok {replacement : Replacement} {nodes updated : List Node}
    {flag : Bool} (ran : replacement.onNodes nodes = .ok (flag, updated))
    (index : Nat) :
    nodes[index]? = none ∧ updated[index]? = none ∨
      ∃ node after flag, nodes[index]? = some node ∧
        updated[index]? = some after ∧
        replacement.onNode node = .ok (flag, after) := by
  induction nodes generalizing flag updated index with
  | nil =>
      cases ran
      exact .inl ⟨rfl, rfl⟩
  | cons node nodes induction =>
      obtain ⟨⟨first, after⟩, head, rest⟩ := Result.bind_eq_ok_iff.mp ran
      obtain ⟨⟨later, afters⟩, tail, result⟩ := Result.bind_eq_ok_iff.mp rest
      cases result
      cases index with
      | zero => exact .inr ⟨node, after, first, rfl, rfl, head⟩
      | succ index => simpa using induction tail index

theorem onNode_of_deleted {replacement : Replacement} {node updated : Node}
    {flag : Bool} (deleted : node.isLive = false)
    (ran : replacement.onNode node = .ok (flag, updated)) :
    updated = node := by
  unfold onNode at ran
  simp only [deleted, Bool.not_false, Bool.true_or, if_true, Except.ok.injEq,
    Prod.mk.injEq] at ran
  exact ran.2.symm

end Replacement

/-- The slots of one arena are those of another with other tokens. -/
structure Retokened (replacement : Replacement) (arena edited : Arena) :
    Prop where
  root : edited.root = arena.root
  slots : ∀ id node, arena.live? id = some node →
    ∃ token,
      replacement.tokenAfter node.token node.children.isEmpty = .ok token ∧
      edited.live? id = some { node with token := token }
  live : ∀ id node, edited.live? id = some node →
    ∃ before, arena.live? id = some before

theorem retokened_of_onNodes {replacement : Replacement} {arena : Arena}
    {nodes : List Node} {flag : Bool}
    (ran : replacement.onNodes arena.slots.toList = .ok (flag, nodes)) :
    Retokened replacement arena { arena with slots := nodes.toArray } := by
  refine { root := rfl, slots := ?_, live := ?_ }
  · intro id node present
    obtain ⟨found, alive⟩ := Arena.live?_eq_some_iff.mp present
    obtain ⟨lower, stored⟩ := Arena.node?_eq_some_iff.mp found
    rcases Replacement.onNodes_eq_ok ran id.toNat with
      ⟨none, _⟩ | ⟨before, after, flag, old, new, made⟩
    · rw [Array.getElem?_toList, stored] at none
      cases none
    · rw [Array.getElem?_toList, stored] at old
      cases old
      obtain ⟨token, retokens, rfl⟩ := Replacement.onNode_eq_ok alive made
      refine ⟨token, retokens, ?_⟩
      exact Arena.live?_eq_some_iff.mpr
        ⟨Arena.node?_eq_some_iff.mpr ⟨lower, by simpa using new⟩, alive⟩
  · intro id node present
    obtain ⟨found, alive⟩ := Arena.live?_eq_some_iff.mp present
    obtain ⟨lower, stored⟩ := Arena.node?_eq_some_iff.mp found
    rcases Replacement.onNodes_eq_ok ran id.toNat with
      ⟨_, none⟩ | ⟨before, after, flag, old, new, made⟩
    · simp [none] at stored
    · simp only [List.getElem?_toArray, new, Option.some.injEq] at stored
      subst stored
      rw [Array.getElem?_toList] at old
      have oldFound := Arena.node?_eq_some_iff.mpr ⟨lower, old⟩
      cases live : before.isLive with
      | true => exact ⟨before, Arena.live?_eq_some_iff.mpr ⟨oldFound, live⟩⟩
      | false =>
          rw [Replacement.onNode_of_deleted live made, live] at alive
          cases alive

namespace Retokened

variable {replacement : Replacement} {arena edited : Arena}

private theorem exists_substituteAll {parent : Int} {trees : List Tree}
    (each : ∀ tree ∈ trees, ∃ after, tree.substitute replacement = .ok after ∧
      edited.Holds parent after ∧ after.ids = tree.ids ∧
      after.id = tree.id) :
    ∃ afters, Tree.substituteAll replacement trees = .ok afters ∧
      (∀ after ∈ afters, edited.Holds parent after) ∧
      Tree.idsAll afters = Tree.idsAll trees ∧
      afters.map Tree.id = trees.map Tree.id := by
  induction trees with
  | nil => exact ⟨[], rfl, by simp, rfl, rfl⟩
  | cons tree trees induction =>
      obtain ⟨head, tail⟩ := List.forall_mem_cons.mp each
      obtain ⟨after, substituted, holds, ids, root⟩ := head
      obtain ⟨afters, allSubstituted, allHold, allIds, roots⟩ :=
        induction tail
      refine ⟨after :: afters, ?_, ?_, ?_, ?_⟩
      · rw [Tree.substituteAll]
        refine Result.bind_eq_ok_iff.mpr ⟨after, substituted, ?_⟩
        exact Result.bind_eq_ok_iff.mpr ⟨afters, allSubstituted, rfl⟩
      · exact List.forall_mem_cons.mpr ⟨holds, allHold⟩
      · simp [ids, allIds]
      · simp [root, roots]

/-- A tree keeps its shape and its slots under a replacement. -/
theorem exists_substitute (retokened : Retokened replacement arena edited)
    {parent : Int} {tree : Tree} (holds : arena.Holds parent tree) :
    ∃ after, tree.substitute replacement = .ok after ∧
      edited.Holds parent after ∧ after.ids = tree.ids ∧
      after.id = tree.id := by
  induction tree generalizing parent with
  | node label operands induction =>
      obtain ⟨afters, allSubstituted, allHold, allIds, roots⟩ :=
        exists_substituteAll fun operand member =>
          induction operand member (holds.operand_holds operand member)
      obtain ⟨token, retokens, slot⟩ := retokened.slots _ _ holds.slot
      have childless : (operands.map Tree.id).isEmpty = operands.isEmpty := by
        cases operands <;> rfl
      rw [Label.token_node, Label.children_node, childless] at retokens
      refine ⟨.node { label with token := token } afters, ?_, ?_, ?_, rfl⟩
      · rw [Tree.substitute]
        refine Result.bind_eq_ok_iff.mpr ⟨token, retokens, ?_⟩
        exact Result.bind_eq_ok_iff.mpr ⟨afters, allSubstituted, rfl⟩
      · exact .node (by rw [roots]; exact slot) allHold
      · simp [allIds]

theorem presents (retokened : Retokened replacement arena edited)
    {tree : Tree} (presents : arena.Presents tree) :
    ∃ after, tree.substitute replacement = .ok after ∧
      edited.Presents after := by
  obtain ⟨after, substituted, holds, ids, root⟩ :=
    retokened.exists_substitute presents.holds
  refine ⟨after, substituted,
    { root := by rw [retokened.root, presents.root, root]
      holds := holds
      distinct := by rw [ids]; exact presents.distinct
      covered := ?_ }⟩
  intro id node live
  obtain ⟨before, present⟩ := retokened.live id node live
  rw [ids]
  exact presents.covered id before present

end Retokened

theorem replace_rewrote {arena : Arena} {tree : Tree} {params : Json.Members}
    {replacement : Replacement} {nodes : List Node} (focus : Int)
    (presents : arena.Presents tree)
    (asked : Replacement.ofParams params = .ok replacement)
    (replaced : replacement.onNodes arena.slots.toList = .ok (true, nodes)) :
    Rewrote arena tree .replace params focus
      (.edited { arena with slots := nodes.toArray }) := by
  obtain ⟨after, substituted, afterPresents⟩ :=
    (retokened_of_onNodes replaced).presents presents
  exact .edited afterPresents (.substitute asked substituted)

end FormulaEdit.Rule
