import FormulaEdit.Rule.Outcome

/-!
# Moving an operand

An operand changes places with its neighbour, under a parent whose operands
may stand in any order.
-/

namespace FormulaEdit.Rule

/-- Which neighbour an operand changes places with. -/
inductive Direction where
  | left
  | right
deriving DecidableEq, Repr

/-- The direction that parameters ask for. -/
def Direction.ofParams (params : Json.Members) : Result Direction :=
  match (params.get? "direction").getD .null with
  | .str "l" => .ok .left
  | .str "r" => .ok .right
  | got => .error (.params (.direction got))

/-- The operators whose operands may stand in any order. -/
def reorderable : List String := ["*", "+", "=", "and", "or"]

/-- Whether the operands of a token may stand in any order. -/
def isReorderable (token : String) : Bool := reorderable.contains token

/-- The index of the first place of an id in a list. -/
def indexIn (id : Int) (list : List Int) : Result Nat :=
  match list.findIdx? (· == id) with
  | some index => .ok index
  | none => .error (.notListed id)

/-- Exchange an entry of a list with the one behind it. -/
def swapNext : (index : Nat) → List Int → List Int
  | 0, first :: second :: rest => second :: first :: rest
  | index + 1, first :: rest => first :: swapNext index rest
  | _, list => list

/-- A list with the entry at an index moved by one place; none at the end of
the list. -/
def moved? (direction : Direction) (index : Nat) (list : List Int) : Option (List Int) :=
  match direction with
  | .left => if index = 0 then none else some (swapNext (index - 1) list)
  | .right => if index + 1 < list.length then some (swapNext index list) else none

/-- Move the operand at the focus. -/
def move (arena : Arena) (focus : Int) (condition : Condition) (params : Json.Members) :
    Result Outcome := do
  let direction ← Direction.ofParams params
  guarded arena focus condition fun node => do
    match ← arena.parentOf node with
    | none => .error (.reorder node.token none)
    | some parent =>
        if !isReorderable parent.token then .error (.reorder node.token (some parent.token))
        else
          let index ← indexIn node.id parent.children
          match moved? direction index parent.children with
          | none => return .unchanged arena
          | some children =>
              return .edited (arena.update node.parent fun node =>
                { node with children := children })

end FormulaEdit.Rule
