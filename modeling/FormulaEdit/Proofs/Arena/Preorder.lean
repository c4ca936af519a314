import FormulaEdit.Proofs.Arena.Build

/-!
# Where an expression stands in its arena

An expression and all its parts fill one run of slots.  The node of the
expression stands in the first of them; behind it follow the runs of its parts,
one after the other and in the order of the source, and the node lists where
they start.  `Occupies` says this of the finished slots, without following the
loop that fills them.
-/

namespace FormulaEdit

theorem Tree.pairwise_children {tree : Tree} {parent : Int}
    (sorted : tree.ids.Pairwise (· < ·)) {node : Node}
    (member : node ∈ tree.nodes parent) :
    node.children.Pairwise (· < ·) := by
  induction tree generalizing parent with
  | node label operands induction =>
      rw [ids_node, List.pairwise_cons] at sorted
      rw [nodes, nodesAll_eq_flatMap, List.mem_cons, List.mem_flatMap] at member
      rcases member with rfl | ⟨operand, position, inside⟩
      · exact sorted.2.sublist (map_id_sublist_idsAll operands)
      · refine induction operand position ?_ inside
        have others := sorted.2
        rw [idsAll_eq_flatMap, List.pairwise_flatMap] at others
        exact others.1 operand position

namespace Arena

open Sexpr (Expr)

mutual

/-- The nodes of an expression fill the slots from `first` up to `next`, below
a parent. -/
inductive Occupies (arena : Arena) :
    (parent : Int) → (first next : Nat) → Expr → Prop where
  | atom {parent : Int} {first : Nat} {text : String} {span : Span}
      (slot : arena.slots[first]? =
        some { id := first, token := text, parent, children := [], span }) :
      Occupies arena parent first (first + 1) (.atom text span)
  | empty {parent : Int} {first : Nat} {span : Span}
      (slot : arena.slots[first]? = some
        { id := first, token := Node.emptyList, parent, children := [], span }) :
      Occupies arena parent first (first + 1) (.compound [] span)
  | operator {parent : Int} {first next : Nat} {operator : String}
      {place span : Span} {operands : List Expr} {children : List Int}
      (known : Node.isOperator operator = true)
      (slot : arena.slots[first]? =
        some { id := first, token := operator, parent, children, span })
      (below : OccupyAll arena first (first + 1) next children operands) :
      Occupies arena parent first next
        (.compound (.atom operator place :: operands) span)
  | list {parent : Int} {first next : Nat} {span : Span} {head : Expr}
      {rest : List Expr} {children : List Int}
      (plain : ∀ token place, head = .atom token place →
        Node.isOperator token = false)
      (slot : arena.slots[first]? = some
        { id := first, token := Node.listMarker, parent, children, span })
      (below : OccupyAll arena first (first + 1) next children (head :: rest)) :
      Occupies arena parent first next (.compound (head :: rest) span)

/-- The nodes of expressions fill one run of slots after the other.  `children`
are the first slots of these runs. -/
inductive OccupyAll (arena : Arena) : (parent : Int) → (first next : Nat) →
    (children : List Int) → List Expr → Prop where
  | nil {parent : Int} {first : Nat} :
      OccupyAll arena parent first first [] []
  | cons {parent : Int} {first middle next : Nat} {expr : Expr}
      {children : List Int} {exprs : List Expr}
      (here : Occupies arena parent first middle expr)
      (later : OccupyAll arena parent middle next children exprs) :
      OccupyAll arena parent first next (first :: children) (expr :: exprs)

end

/-! ## Blocks in their slots -/

theorem operatorOf?_eq_some {head : Expr} {operator : String}
    (found : operatorOf? head = some operator) :
    ∃ place, head = .atom operator place ∧
      Node.isOperator operator = true := by
  cases head with
  | atom text place =>
      obtain ⟨same, known⟩ := Option.filter_eq_some_iff.mp found
      cases same
      exact ⟨place, rfl, known⟩
  | compound items span => cases found

theorem operatorOf?_eq_none {token : String} {place : Span}
    (absent : operatorOf? (.atom token place) = none) :
    Node.isOperator token = false := by
  rw [operatorOf?, Option.filter_eq_none_iff] at absent
  simpa using absent token rfl

/-- Nodes stand in the slots from an index on. -/
def Stand (arena : Arena) (first : Nat) (nodes : List Node) : Prop :=
  nodes <+: arena.slots.toList.drop first

theorem stand_cons {arena : Arena} {first : Nat} {node : Node}
    {nodes : List Node} (stand : arena.Stand first (node :: nodes)) :
    arena.slots[first]? = some node ∧ arena.Stand (first + 1) nodes := by
  obtain ⟨rest, split⟩ := stand
  constructor
  · rw [← Array.getElem?_toList, ← List.head?_drop, ← split]
    rfl
  · refine ⟨rest, ?_⟩
    rw [← List.drop_drop, ← split]
    rfl

theorem stand_append {arena : Arena} {first : Nat} {nodes others : List Node}
    (stand : arena.Stand first (nodes ++ others)) :
    arena.Stand first nodes ∧ arena.Stand (first + nodes.length) others := by
  obtain ⟨rest, split⟩ := stand
  constructor
  · exact ⟨others ++ rest, by rw [← List.append_assoc, split]⟩
  · refine ⟨rest, ?_⟩
    rw [← List.drop_drop, ← split, List.append_assoc, List.drop_left]

mutual

theorem occupies_block {arena : Arena} {parent : Int} {first : Nat}
    {expr : Expr} (stand : arena.Stand first (block parent first expr)) :
    arena.Occupies parent first
      (first + (block parent first expr).length) expr := by
  match expr with
  | .atom text span =>
      rw [block] at stand ⊢
      exact .atom (stand_cons stand).1
  | .compound [] span =>
      rw [block] at stand ⊢
      exact .empty (stand_cons stand).1
  | .compound (head :: rest) span =>
      rw [block] at stand ⊢
      cases found : operatorOf? head with
      | some operator =>
          obtain ⟨place, rfl, known⟩ := operatorOf?_eq_some found
          simp only [found] at stand ⊢
          obtain ⟨slot, below⟩ := stand_cons stand
          rw [List.length_cons, Nat.add_comm _ 1, ← Nat.add_assoc]
          exact .operator known slot (occupyAll_blocks below)
      | none =>
          simp only [found] at stand ⊢
          obtain ⟨slot, below⟩ := stand_cons stand
          obtain ⟨here, later⟩ := stand_append below
          rw [List.length_cons, List.length_append, Nat.add_comm _ 1,
            ← Nat.add_assoc, ← Nat.add_assoc]
          refine .list ?_ slot
            (.cons (occupies_block here) (occupyAll_blocks later))
          rintro token place rfl
          exact operatorOf?_eq_none found

theorem occupyAll_blocks {arena : Arena} {parent : Int} {first : Nat}
    {exprs : List Expr}
    (stand : arena.Stand first (blocks parent first exprs).2) :
    arena.OccupyAll parent first
      (first + (blocks parent first exprs).2.length)
      (blocks parent first exprs).1 exprs := by
  match exprs with
  | [] => exact .nil
  | expr :: rest =>
      simp only [blocks] at stand ⊢
      obtain ⟨here, later⟩ := stand_append stand
      rw [List.length_append, ← Nat.add_assoc]
      exact .cons (occupies_block here) (occupyAll_blocks later)

end

/-- The loop gives every expression the slots that plain recursion would give
it.  The root comes first, no slot is dead, the arena passes its check, and the
expression with all its parts fills the slots in the order of the source, so
that ids are slots and the children of a node have growing ids. -/
theorem loop_fills_in_preorder (expr : Expr) :
    (ofExpr expr).slots.toList = block Node.noParent 0 expr ∧
      (ofExpr expr).root = 0 ∧
      (ofExpr expr).validate = .ok () ∧
      (ofExpr expr).Occupies Node.noParent 0 (ofExpr expr).size expr ∧
      ∀ (slot : Nat) (node : Node), (ofExpr expr).slots[slot]? = some node →
        node.id = slot ∧ node.isLive = true ∧
          node.children.Pairwise (· < ·) := by
  have slots : (ofExpr expr).slots.toList = block Node.noParent 0 expr := by
    rw [ofExpr_eq]
    rfl
  refine ⟨slots, root_ofExpr expr,
    validate_eq_ok_iff.mpr ⟨_, presents_ofExpr expr⟩, ?_, ?_⟩
  · have stand : (ofExpr expr).Stand 0 (block Node.noParent 0 expr) :=
      ⟨[], by rw [List.append_nil, List.drop_zero, slots]⟩
    have size : (ofExpr expr).size =
        0 + (block Node.noParent 0 expr).length := by
      rw [Nat.zero_add, ← slots]
      rfl
    rw [size]
    exact occupies_block stand
  · intro slot node stored
    rw [← Array.getElem?_toList] at stored
    have same := id_of_slots_ofExpr stored
    refine ⟨same, ?_, ?_⟩
    · simp only [Node.isLive, Node.deletedId, bne_iff_ne, ne_eq]
      omega
    · have member := List.mem_of_getElem? stored
      rw [slots_ofExpr] at member
      exact Tree.pairwise_children (Tree.pairwise_ids_ofExpr 0 expr) member

theorem loop_fills_in_preorder_nested :
    ∃ expr node, Sexpr.read "((f x) (and p ()))" = .ok expr ∧
      (ofExpr expr).slots[4]? = some node ∧
      node.token = "and" ∧ node.children = [5, 6] ∧
      node.id = 4 ∧ node.isLive = true ∧ node.children.Pairwise (· < ·) ∧
      (ofExpr expr).Occupies Node.noParent 0 7 expr := by
  have shown : (do
      let expr ← (Sexpr.read "((f x) (and p ()))").toOption
      let node ← (ofExpr expr).slots[4]?
      return (node.token, node.children, (ofExpr expr).size)) =
        some ("and", ([5, 6] : List Int), 7) := by
    decide +kernel
  obtain ⟨expr, read, rest⟩ := Option.bind_eq_some_iff.mp shown
  obtain ⟨node, stored, rest⟩ := Option.bind_eq_some_iff.mp rest
  obtain ⟨token, children, size⟩ : node.token = "and" ∧
      node.children = [5, 6] ∧ (ofExpr expr).size = 7 := by
    simpa using rest
  obtain ⟨_, _, _, occupies, each⟩ := loop_fills_in_preorder expr
  obtain ⟨same, live, growing⟩ := each 4 node stored
  rw [size] at occupies
  exact ⟨expr, node, Result.toOption_eq_some_iff.mp read, stored, token,
    children, same, live, growing, occupies⟩

end Arena

end FormulaEdit
