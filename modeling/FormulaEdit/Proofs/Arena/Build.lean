import FormulaEdit.Proofs.Arena.Filling
import FormulaEdit.Proofs.Arena.Validity

/-!
# Arenas of expressions

The tree of an expression is built by following the expression, with ids in
pre-order.  The block of nodes of an expression is this tree written out, so
the arena of an expression presents it, and every formula that is read passes
the check.
-/

namespace FormulaEdit

namespace Tree

open Sexpr (Expr)

mutual

/-- The tree of an expression, with ids from a number on. -/
def ofExpr (id : Nat) : Expr → Tree
  | .atom text span => .node { id := id, token := text, span := span } []
  | .compound [] span =>
      .node { id := id, token := Node.emptyList, span := span } []
  | .compound (head :: rest) span =>
      match Arena.operatorOf? head with
      | some operator =>
          .node { id := id, token := operator, span := span }
            (ofExprs (id + 1) rest)
      | none =>
          let first := ofExpr (id + 1) head
          .node { id := id, token := Node.listMarker, span := span }
            (first :: ofExprs (id + 1 + first.ids.length) rest)

/-- The trees of expressions, with ids from a number on. -/
def ofExprs (next : Nat) : List Expr → List Tree
  | [] => []
  | expr :: rest =>
      let first := ofExpr next expr
      first :: ofExprs (next + first.ids.length) rest

end

mutual

/-- The nodes of a tree below a parent, a node before its operands. -/
def nodes (parent : Int) : Tree → List Node
  | .node label operands =>
      label.node parent (operands.map Tree.id) :: nodesAll label.id operands

/-- The nodes of a list of trees below a parent. -/
def nodesAll (parent : Int) : List Tree → List Node
  | [] => []
  | tree :: trees => tree.nodes parent ++ nodesAll parent trees

end

theorem nodesAll_eq_flatMap (parent : Int) (trees : List Tree) :
    nodesAll parent trees = trees.flatMap (nodes parent) := by
  induction trees with
  | nil => simp [nodesAll]
  | cons tree trees induction => simp [nodesAll, induction]

theorem map_id_nodes (tree : Tree) (parent : Int) :
    (tree.nodes parent).map Node.id = tree.ids := by
  induction tree generalizing parent with
  | node label operands induction =>
      rw [nodes, List.map_cons, ids_node, Label.id_node,
        nodesAll_eq_flatMap, idsAll_eq_flatMap, List.map_flatMap]
      congr 1
      exact List.flatMap_congr fun operand member =>
        induction operand member label.id

theorem length_nodes (tree : Tree) (parent : Int) :
    (tree.nodes parent).length = tree.ids.length := by
  rw [← map_id_nodes tree parent, List.length_map]

@[simp] theorem id_ofExpr (id : Nat) (expr : Expr) :
    (ofExpr id expr).id = id := by
  cases expr with
  | atom text span => simp [ofExpr]
  | compound items span =>
      cases items with
      | nil => simp [ofExpr]
      | cons head rest =>
          rw [ofExpr]
          cases Arena.operatorOf? head <;> rfl

mutual

theorem block_eq_nodes (parent : Int) (id : Nat) (expr : Expr) :
    Arena.block parent id expr = (ofExpr id expr).nodes parent := by
  cases expr with
  | atom text span => simp [Arena.block, ofExpr, nodes, nodesAll, Label.node]
  | compound items span =>
      cases items with
      | nil => simp [Arena.block, ofExpr, nodes, nodesAll, Label.node]
      | cons head rest =>
          rw [Arena.block, ofExpr]
          cases Arena.operatorOf? head with
          | some operator =>
              simp only [blocks_eq_nodesAll id (id + 1) rest, nodes]
              rfl
          | none =>
              simp only [block_eq_nodes id (id + 1) head, length_nodes,
                blocks_eq_nodesAll, nodes, nodesAll, List.map_cons, id_ofExpr]
              rfl

theorem blocks_eq_nodesAll (parent : Int) (next : Nat) (exprs : List Expr) :
    Arena.blocks parent next exprs =
      ((ofExprs next exprs).map Tree.id,
        nodesAll parent (ofExprs next exprs)) := by
  cases exprs with
  | nil => simp [Arena.blocks, ofExprs, nodesAll]
  | cons expr rest =>
      simp only [Arena.blocks, ofExprs, nodesAll,
        block_eq_nodes parent next expr, length_nodes,
        blocks_eq_nodesAll parent _ rest, List.map_cons, id_ofExpr]

end

/-- Numbers in order, as ids. -/
def run (first count : Nat) : List Int :=
  (List.range' first count).map Nat.cast

theorem run_append (first left right : Nat) :
    run first left ++ run (first + left) right = run first (left + right) := by
  rw [run, run, run, ← List.map_append, List.range'_append_1]

theorem cons_run (first count : Nat) :
    (first : Int) :: run (first + 1) count = run first (count + 1) := by
  simp [run, List.range'_succ]

mutual

theorem ids_ofExpr (id : Nat) (expr : Expr) :
    (ofExpr id expr).ids = run id (ofExpr id expr).ids.length := by
  cases expr with
  | atom text span => simp [ofExpr, run]
  | compound items span =>
      cases items with
      | nil => simp [ofExpr, run]
      | cons head rest =>
          rw [ofExpr]
          cases Arena.operatorOf? head with
          | some operator =>
              simp only [ids_node, List.length_cons]
              rw [← cons_run, ← idsAll_ofExprs (id + 1) rest]
          | none =>
              simp only [ids_node, idsAll_cons, List.length_cons,
                List.length_append]
              rw [← cons_run, ← run_append, ← ids_ofExpr (id + 1) head,
                ← idsAll_ofExprs]

theorem idsAll_ofExprs (next : Nat) (exprs : List Expr) :
    idsAll (ofExprs next exprs) =
      run next (idsAll (ofExprs next exprs)).length := by
  cases exprs with
  | nil => simp [ofExprs, run]
  | cons expr rest =>
      simp only [ofExprs, idsAll_cons, List.length_append]
      rw [← run_append, ← ids_ofExpr next expr, ← idsAll_ofExprs]

end

theorem pairwise_ids_ofExpr (id : Nat) (expr : Expr) :
    (ofExpr id expr).ids.Pairwise (· < ·) := by
  rw [ids_ofExpr, run, List.pairwise_map]
  apply List.Pairwise.imp _ List.pairwise_lt_range'
  intro first second less
  exact Int.ofNat_lt.mpr less

end Tree

namespace Arena

theorem holds_of_nodes {arena : Arena} {parent : Int} {tree : Tree}
    (placed : ∀ node ∈ tree.nodes parent,
      arena.live? node.id = some node) : arena.Holds parent tree := by
  induction tree generalizing parent with
  | node label operands induction =>
      rw [Tree.nodes, List.forall_mem_cons] at placed
      refine .node placed.1 ?_
      intro operand member
      refine induction operand member ?_
      intro node position
      refine placed.2 node ?_
      rw [Tree.nodesAll_eq_flatMap, List.mem_flatMap]
      exact ⟨operand, member, position⟩

@[simp] theorem root_ofExpr (expr : Sexpr.Expr) : (ofExpr expr).root = 0 := by
  rw [ofExpr_eq]
  rfl

theorem slots_ofExpr (expr : Sexpr.Expr) : (ofExpr expr).slots.toList =
    (Tree.ofExpr 0 expr).nodes Node.noParent := by
  rw [ofExpr_eq, ← Tree.block_eq_nodes]
  rfl

theorem id_of_slots_ofExpr {expr : Sexpr.Expr} {slot : Nat} {node : Node}
    (stored : (ofExpr expr).slots.toList[slot]? = some node) :
    node.id = slot := by
  have ids := Tree.map_id_nodes (Tree.ofExpr 0 expr) Node.noParent
  rw [Tree.ids_ofExpr, ← slots_ofExpr] at ids
  have entry := congrArg (fun list => list[slot]?) ids
  simp only [List.getElem?_map, stored, Option.map_some, Tree.run] at entry
  have bound : slot < (Tree.ofExpr 0 expr).ids.length := by
    by_contra outside
    rw [List.getElem?_eq_none (by simpa using outside)] at entry
    cases entry
  rw [List.getElem?_range' bound] at entry
  simpa using entry

theorem live?_ofExpr_iff {expr : Sexpr.Expr} {id : Int} {node : Node} :
    (ofExpr expr).live? id = some node ↔
      node ∈ (Tree.ofExpr 0 expr).nodes Node.noParent ∧ node.id = id := by
  rw [← slots_ofExpr, live?_eq_some_iff, node?_eq_some_iff]
  constructor
  · rintro ⟨⟨lower, stored⟩, _⟩
    rw [← Array.getElem?_toList] at stored
    have same := id_of_slots_ofExpr stored
    exact ⟨List.mem_of_getElem? stored, by omega⟩
  · rintro ⟨member, rfl⟩
    obtain ⟨slot, stored⟩ := List.getElem?_of_mem member
    have same := id_of_slots_ofExpr stored
    rw [Array.getElem?_toList] at stored
    refine ⟨⟨by omega, ?_⟩, ?_⟩
    · rw [same, Int.toNat_natCast]
      exact stored
    · simp only [Node.isLive, Node.deletedId, bne_iff_ne, ne_eq]
      omega

/-- The arena of an expression presents the tree of the expression. -/
theorem presents_ofExpr (expr : Sexpr.Expr) :
    (ofExpr expr).Presents (Tree.ofExpr 0 expr) := by
  refine
    { root := by rw [Tree.id_ofExpr, root_ofExpr]; rfl
      holds := holds_of_nodes fun node member =>
        live?_ofExpr_iff.mpr ⟨member, rfl⟩
      distinct := ?_
      covered := ?_ }
  · exact (Tree.pairwise_ids_ofExpr 0 expr).imp Int.ne_of_lt
  · intro id node live
    obtain ⟨member, rfl⟩ := live?_ofExpr_iff.mp live
    rw [← Tree.map_id_nodes _ Node.noParent]
    exact List.mem_map_of_mem member

/-- Every formula that is read passes the check. -/
theorem validate_ofText {text : String} {arena : Arena}
    (read : ofText text = .ok arena) : arena.validate = .ok () := by
  unfold ofText at read
  split at read
  · cases read
    exact validate_eq_ok_iff.mpr ⟨_, presents_ofExpr _⟩
  · cases read

end Arena

end FormulaEdit
