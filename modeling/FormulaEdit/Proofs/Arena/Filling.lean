import FormulaEdit.Arena.Build
import Mathlib.Data.List.Basic

/-!
# The loop that fills an arena

The loop takes one expression after the other from a stack, and a node learns
of its children only when they get their slots.  A recursive builder needs no
stack: it writes the block of an expression, with complete children lists, from
a given id on.  The two agree: when the loop has worked off an expression that
it took from the stack, the block of this expression stands behind the slots
that there were, and the rest of the stack is untouched.
-/

namespace FormulaEdit

/-- A node with more children behind those that it has. -/
def Node.adopt (node : Node) (children : List Int) : Node :=
  { node with children := node.children ++ children }

namespace Arena

open Sexpr (Expr)

/-! ## The recursive builder -/

mutual

/-- The block of nodes of an expression, under a parent and from an id on. -/
def block (parent : Int) (id : Nat) : Expr → List Node
  | .atom text span => [{ id := id, token := text, parent := parent, span := span }]
  | .compound [] span =>
      [{ id := id, token := Node.emptyList, parent := parent, span := span }]
  | .compound (head :: rest) span =>
      match operatorOf? head with
      | some operator =>
          let (children, nodes) := blocks id (id + 1) rest
          { id := id, token := operator, parent := parent, children := children, span := span }
            :: nodes
      | none =>
          let first := block id (id + 1) head
          let (children, nodes) := blocks id (id + 1 + first.length) rest
          { id := id, token := Node.listMarker, parent := parent
            children := ((id + 1 : Nat) : Int) :: children, span := span }
            :: (first ++ nodes)

/-- The ids and the blocks of expressions with one parent, from an id on. -/
def blocks (parent : Int) (next : Nat) : List Expr → List Int × List Node
  | [] => ([], [])
  | expr :: rest =>
      let first := block parent next expr
      let (children, nodes) := blocks parent (next + first.length) rest
      ((next : Int) :: children, first ++ nodes)

end

/-- The node of an expression without its children. -/
def bud (parent : Int) (id : Nat) (expr : Expr) : Node :=
  { id := id, token := (layOut expr).1, parent := parent, span := expr.span }

theorem block_eq (parent : Int) (id : Nat) (expr : Expr) :
    block parent id expr =
      (bud parent id expr).adopt (blocks id (id + 1) (layOut expr).2).1 ::
        (blocks id (id + 1) (layOut expr).2).2 := by
  match expr with
  | .atom text span => simp [block, blocks, layOut, bud, Node.adopt, Expr.span]
  | .compound [] span =>
      simp [block, blocks, layOut, bud, Node.adopt, Expr.span]
  | .compound (head :: rest) span =>
      rw [block, layOut, bud, layOut]
      cases operatorOf? head with
      | some operator => simp [Node.adopt, Expr.span]
      | none => simp [blocks, Node.adopt, Expr.span]

/-! ## Growing arenas -/

/-- An arena with children entered at a node and nodes behind its slots. -/
def extend (arena : Arena) (parent : Nat) (children : List Int)
    (nodes : List Node) : Arena :=
  { arena with
    slots := arena.slots.modify parent (·.adopt children) ++ nodes.toArray }

@[simp] theorem size_extend (arena : Arena) (parent : Nat)
    (children : List Int) (nodes : List Node) :
    (arena.extend parent children nodes).size = arena.size + nodes.length := by
  simp [extend, size]

theorem modify_append_left {first : Array Node} {slot : Nat}
    (inside : slot < first.size) (second : Array Node)
    (change : Node → Node) :
    (first ++ second).modify slot change =
      first.modify slot change ++ second := by
  apply Array.ext_getElem?
  intro index
  simp only [Array.getElem?_modify, Array.getElem?_append, Array.size_modify]
  by_cases same : slot = index
  · subst same
    simp [inside]
  · simp [same]

theorem modify_append_cons (first : Array Node) (node : Node)
    (second : List Node) (change : Node → Node) :
    (first ++ (node :: second).toArray).modify first.size change =
      first ++ (change node :: second).toArray := by
  apply Array.ext_getElem?
  intro index
  simp only [Array.getElem?_modify, Array.getElem?_append]
  by_cases same : first.size = index
  · subst same
    simp
  · by_cases before : index < first.size
    · simp [same, before]
    · obtain ⟨rest, rfl⟩ : ∃ rest, index = first.size + (rest + 1) :=
        ⟨index - first.size - 1, by omega⟩
      simp [before]

section Growing

variable {arena : Arena} {parent : Nat}

theorem extend_nil : arena.extend parent [] [] = arena := by
  have kept : arena.slots.modify parent (·.adopt []) = arena.slots := by
    apply Array.ext_getElem?
    intro index
    rw [Array.getElem?_modify]
    split
    · simp [Node.adopt]
    · rfl
  simp [extend, kept]

theorem extend_extend (inside : parent < arena.size) (children more : List Int)
    (nodes further : List Node) :
    (arena.extend parent children nodes).extend parent more further =
      arena.extend parent (children ++ more) (nodes ++ further) := by
  have within : parent <
      (arena.slots.modify parent (·.adopt children)).size := by
    rwa [Array.size_modify]
  have both : (arena.slots.modify parent (·.adopt children)).modify parent
      (·.adopt more) =
        arena.slots.modify parent (·.adopt (children ++ more)) := by
    apply Array.ext_getElem?
    intro index
    simp only [Array.getElem?_modify]
    split
    · simp [Node.adopt, Function.comp_def]
    · rfl
  simp only [extend, modify_append_left within _, both, Array.append_assoc,
    List.append_toArray]

theorem extend_extend_last (children more : List Int) (node : Node)
    (further : List Node) :
    (arena.extend parent children [node]).extend arena.size more further =
      arena.extend parent children (node.adopt more :: further) := by
  have size : arena.size =
      (arena.slots.modify parent (·.adopt children)).size := by
    rw [Array.size_modify]
    rfl
  simp only [extend]
  rw [size, modify_append_cons]
  simp only [Array.append_assoc, List.append_toArray, List.singleton_append]

theorem place_eq (inside : parent < arena.size) (expr : Expr) :
    arena.place { expr, parent } =
      arena.extend parent [arena.size] [bud parent arena.size expr] := by
  have below : (parent : Int) ≠ Node.noParent := by
    unfold Node.noParent
    omega
  have notNegative : ¬(parent : Int) < 0 := by omega
  have pushed := modify_append_left inside #[bud parent arena.size expr]
    (·.adopt [arena.size])
  rw [place]
  simp only [below, if_false, update, notNegative]
  rw [extend, ← pushed]
  rfl

end Growing

/-! ## The loop -/

/-- Expressions with one parent on top of the stack are worked off by writing
their blocks.  The parts of the first one get their slots before the second one
does. -/
theorem fill_append {arena : Arena} {parent : Nat}
    (inside : parent < arena.size) (exprs : List Expr) (rest : List Waiting) :
    arena.fill ((exprs.map fun expr => { expr, parent : Waiting }) ++ rest) =
      (arena.extend parent (blocks parent arena.size exprs).1
        (blocks parent arena.size exprs).2).fill rest := by
  cases exprs with
  | nil => rw [blocks, extend_nil, List.map_nil, List.nil_append]
  | cons expr others =>
      have grown := size_extend arena parent [arena.size]
        [bud parent arena.size expr]
      have first : arena.size < (arena.extend parent [arena.size]
          [bud parent arena.size expr]).size := by
        rw [grown, List.length_singleton]
        omega
      rw [List.map_cons, List.cons_append, fill, follow, place_eq inside,
        fill_append first (layOut expr).2, grown, List.length_singleton,
        extend_extend_last, ← block_eq]
      have whole := size_extend arena parent [arena.size]
        (block parent arena.size expr)
      rw [fill_append (by omega) others, whole, extend_extend inside]
      simp only [blocks, List.singleton_append]
termination_by exprCounts exprs
decreasing_by
  all_goals
    have fewer := exprCounts_layOut_lt expr
    rw [exprCounts]
    omega

/-- The loop builds what the recursive builder writes, in the same slots. -/
theorem ofExpr_eq (expr : Expr) : ofExpr expr =
    refresh { slots := (block Node.noParent 0 expr).toArray, root := 0 } := by
  let rooted : Arena := { root := 0 }
  have first : place {} { expr, parent := Node.noParent } =
      rooted.extend 0 [] [bud Node.noParent 0 expr] := rfl
  have inside : 0 < (rooted.extend 0 [] [bud Node.noParent 0 expr]).size :=
    Nat.one_pos
  have parts := fill_append inside (layOut expr).2 []
  have whole : (rooted.extend 0 [] [bud Node.noParent 0 expr]).extend 0
      (blocks 0 1 (layOut expr).2).1 (blocks 0 1 (layOut expr).2).2 =
        { rooted with slots := (block Node.noParent 0 expr).toArray } :=
    calc
      _ = rooted.extend 0 [] (block Node.noParent 0 expr) := by
          rw [block_eq]
          exact extend_extend_last _ _ _ _
      _ = _ := by simp [extend, rooted]
  rw [ofExpr, fill, first]
  refine congrArg refresh (parts.trans ?_)
  rw [fill]
  exact whole

end Arena

end FormulaEdit
