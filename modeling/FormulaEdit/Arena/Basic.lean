import FormulaEdit.Failure
import FormulaEdit.View

/-!
# Arenas

An arena owns its slots, the id of its root and the view drawn of it.  The id
of a node is meant to be the index of its slot, and the view to be fresh; both
are kept by the rules but not by every operation on single slots, so they are
stated as properties and not built in.
-/

namespace FormulaEdit

/-- A store of nodes with a root and a view. -/
structure Arena where
  slots : Array Node := #[]
  root : Int := Node.noParent
  view : View := {}
deriving DecidableEq, Repr, Inhabited

namespace Arena

/-- The number of slots. -/
def size (arena : Arena) : Nat := arena.slots.size

/-- The slot of an id, if there is one. -/
def node? (arena : Arena) (id : Int) : Option Node :=
  if id < 0 then none else arena.slots[id.toNat]?

/-- The slot of an id. -/
def node (arena : Arena) (id : Int) : Result Node :=
  match arena.node? id with
  | some node => .ok node
  | none => .error (.arena (.outside id arena.size))

/-- The slot of the root. -/
def rootNode (arena : Arena) : Result Node := arena.node arena.root

/-- The parent of a node; a root has none. -/
def parentOf (arena : Arena) (node : Node) : Result (Option Node) :=
  if node.parent = Node.noParent then .ok none
  else (arena.node node.parent).map some

/-- The nodes that have not been deleted, in order. -/
def liveNodes (arena : Arena) : List Node := arena.slots.toList.filter (·.isLive)

/-- Change the slot of an id; an id outside the arena changes nothing. -/
def update (arena : Arena) (id : Int) (change : Node → Node) : Arena :=
  if id < 0 then arena else { arena with slots := arena.slots.modify id.toNat change }

/-- Add a slot at the end; its id is its index. -/
def push (arena : Arena) (token : String) (parent : Int) (children : List Int) (span : Span) :
    Arena :=
  let node : Node :=
    { id := arena.size, token := token, parent := parent, children := children, span := span }
  { arena with slots := arena.slots.push node }

/-- The slot that an index names; a negative one counts from the end. -/
def slotOf? (arena : Arena) (index : Int) : Option Nat :=
  let index := if index < 0 then index + arena.size else index
  if index < 0 then none
  else if index.toNat < arena.size then some index.toNat
  else none

/-- Put a tombstone into the slot that a node's id names.  Nothing else is
changed: references to the node have to be redirected before. -/
def delete (arena : Arena) (node : Node) : Result Arena :=
  match arena.slotOf? node.id with
  | some slot => .ok { arena with slots := arena.slots.modify slot fun _ => Node.tombstone }
  | none => .error .slotRange

/-- Draw the view anew. -/
def refresh (arena : Arena) : Arena :=
  { arena with view := .ofNodes arena.slots.toList }

theorem node_eq_ok_iff (arena : Arena) (id : Int) (node : Node) :
    arena.node id = .ok node ↔ arena.node? id = some node := by
  unfold Arena.node
  cases arena.node? id <;> simp

@[simp] theorem size_update (arena : Arena) (id : Int) (change : Node → Node) :
    (arena.update id change).size = arena.size := by
  unfold update size
  split <;> simp

@[simp] theorem root_update (arena : Arena) (id : Int) (change : Node → Node) :
    (arena.update id change).root = arena.root := by
  unfold update
  split <;> rfl

/-- An update is seen at its own id and nowhere else. -/
theorem node?_update (arena : Arena) (id other : Int) (change : Node → Node) :
    (arena.update id change).node? other =
      if other = id then (arena.node? other).map change else arena.node? other := by
  unfold node? update
  by_cases negative : other < 0
  · simp [negative]
  · by_cases same : other = id
    · subst same
      simp [negative, Array.getElem?_modify]
    · by_cases below : id < 0
      · simp [negative, same, below]
      · have apart : id.toNat ≠ other.toNat := by omega
        simp [negative, same, below, apart, Array.getElem?_modify]

@[simp] theorem size_push (arena : Arena) (token : String) (parent : Int)
    (children : List Int) (span : Span) :
    (arena.push token parent children span).size = arena.size + 1 := by
  simp [push, size]

@[simp] theorem slots_refresh (arena : Arena) : arena.refresh.slots = arena.slots := rfl

@[simp] theorem root_refresh (arena : Arena) : arena.refresh.root = arena.root := rfl

@[simp] theorem size_refresh (arena : Arena) : arena.refresh.size = arena.size := rfl

@[simp] theorem node?_refresh (arena : Arena) (id : Int) :
    arena.refresh.node? id = arena.node? id := rfl

/-- Count the links from a node to its root, on from `depth`.  The fuel is one
more than the number of slots, which no chain without a cycle uses up. -/
def climb (arena : Arena) (start : Int) :
    (fuel depth : Nat) → Node → Result Nat
  | 0, depth, node =>
      if node.parent = Node.noParent then .ok depth
      else .error (.arena (.parentCycle start))
  | fuel + 1, depth, node =>
      if node.parent = Node.noParent then .ok depth
      else do
        let parent ← arena.node node.parent
        if parent.isLive then arena.climb start fuel (depth + 1) parent
        else .error (.arena (.deletedParent node.id node.parent))

/-- The number of links from a node to its root. -/
def depth (arena : Arena) (node : Node) : Result Nat :=
  arena.climb node.id (arena.size + 1) 0 node

end Arena

end FormulaEdit
