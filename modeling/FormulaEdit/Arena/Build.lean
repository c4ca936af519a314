import FormulaEdit.Arena.Basic
import FormulaEdit.Sexpr.Basic

/-!
# From expressions to arenas

Expressions get their slots in pre-order, from a stack of those that wait for
one.  A compound headed by an operator becomes a node with that token and its
operands as children; every other compound becomes a plain list of all its
items.  A node is entered into the children of its parent when it gets its
slot.
-/

namespace FormulaEdit.Arena

open Sexpr (Expr)

/-- The operator that heads a compound. -/
def operatorOf? (head : Expr) : Option String :=
  head.atomText?.filter Node.isOperator

/-- The token of the node of an expression, and the expressions that become its
children. -/
def layOut : Expr → String × List Expr
  | .atom text _ => (text, [])
  | .compound [] _ => (Node.emptyList, [])
  | .compound (head :: rest) _ =>
      match operatorOf? head with
      | some operator => (operator, rest)
      | none => (Node.listMarker, head :: rest)

/-- An expression that waits for its slot, and the id of the node above it. -/
structure Waiting where
  expr : Expr
  parent : Int

/-- Give the next slot to an expression.  It comes last among the children of
its parent, or is the root. -/
def place (arena : Arena) (waiting : Waiting) : Arena :=
  let id : Int := arena.size
  let placed := arena.push (layOut waiting.expr).1 waiting.parent [] waiting.expr.span
  if waiting.parent = Node.noParent then { placed with root := id }
  else placed.update waiting.parent fun node =>
    { node with children := node.children ++ [id] }

mutual

/-- The number of expressions in an expression, itself included. -/
def exprCount : Expr → Nat
  | .atom _ _ => 1
  | .compound [] _ => 1
  | .compound (head :: rest) _ => exprCount head + exprCounts rest + 1

/-- The number of expressions in a list of expressions. -/
def exprCounts : List Expr → Nat
  | [] => 0
  | expr :: rest => exprCount expr + exprCounts rest

end

theorem exprCounts_append (first second : List Expr) :
    exprCounts (first ++ second) = exprCounts first + exprCounts second := by
  induction first with
  | nil => rw [List.nil_append, exprCounts, Nat.zero_add]
  | cons expr rest induction =>
      rw [List.cons_append, exprCounts, exprCounts, induction, Nat.add_assoc]

theorem exprCounts_layOut_lt (expr : Expr) : exprCounts (layOut expr).2 < exprCount expr := by
  match expr with
  | .atom _ _ => exact Nat.one_pos
  | .compound [] _ => exact Nat.one_pos
  | .compound (head :: rest) _ =>
      rw [layOut, exprCount]
      cases operatorOf? head with
      | some operator => exact Nat.lt_succ_of_le (Nat.le_add_left _ _)
      | none => exact Nat.lt_succ_self _

/-- The stack after the expression on top of it got a slot: its children, which
wait below the id of this slot, come before the rest. -/
def follow (waiting : Waiting) (id : Nat) (rest : List Waiting) : List Waiting :=
  ((layOut waiting.expr).2.map fun expr => { expr, parent := id : Waiting }) ++ rest

theorem exprCounts_follow_lt (waiting : Waiting) (id : Nat) (rest : List Waiting) :
    exprCounts ((follow waiting id rest).map Waiting.expr) <
      exprCounts ((waiting :: rest).map Waiting.expr) := by
  have fewer := exprCounts_layOut_lt waiting.expr
  simp only [follow, List.map_append, List.map_map, Function.comp_def, List.map_id',
    List.map_cons, exprCounts_append, exprCounts]
  omega

/-- Give slots to all expressions that wait. -/
@[semireducible] def fill (arena : Arena) (pending : List Waiting) : Arena :=
  match pending with
  | [] => arena
  | waiting :: rest => (arena.place waiting).fill (follow waiting arena.size rest)
termination_by exprCounts (pending.map Waiting.expr)
decreasing_by exact exprCounts_follow_lt waiting arena.size rest

/-- The arena of an expression; its root has id zero. -/
def ofExpr (expr : Expr) : Arena :=
  refresh (fill {} [{ expr, parent := Node.noParent }])

/-- Read a formula into an arena. -/
def ofText (text : String) : Result Arena :=
  match Sexpr.read text with
  | .ok expr => .ok (ofExpr expr)
  | .error cause => .error (.malformed cause)

end FormulaEdit.Arena
