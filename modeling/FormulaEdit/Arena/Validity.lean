import FormulaEdit.Arena.Basic

/-!
# Checking arenas

A checked arena is a rooted tree: ids are slot indices, each live node but the
root is listed exactly once by a live parent, each child points back, and all
chains of parents end.  The first fault in the order of the slots is reported.
-/

namespace FormulaEdit.Arena

/-- Report a fault unless a condition holds. -/
def require (condition : Bool) (fault : ArenaFault) : Result Unit :=
  if condition then .ok () else .error (.arena fault)

/-- Check the link from a node to its parent. -/
def checkParent (arena : Arena) (node : Node) : Result Unit := do
  if node.isRoot then require (node.id == arena.root) (.secondRoot node.id arena.root)
  else
    let parent ← arena.node node.parent
    require parent.isLive (.deletedParent node.id node.parent)
    require (parent.children.count node.id == 1) (.notListedOnce parent.id node.id)

/-- Check the links from a node to its children. -/
def checkChildren (arena : Arena) (node : Node) : List Int → Result Unit
  | [] => .ok ()
  | id :: rest => do
      let child ← arena.node id
      require child.isLive (.deletedChild node.id id)
      require (child.parent == node.id) (.strayChild id node.id child.parent)
      arena.checkChildren node rest

/-- Check one slot; a tombstone always passes. -/
def checkSlot (arena : Arena) (slot : Nat) (node : Node) : Result Unit := do
  if node.isLive then
    require (node.id == (slot : Int)) (.slotMismatch slot node.id)
    arena.checkParent node
    arena.checkChildren node node.children
    let _ ← arena.depth node
    return ()
  else return ()

/-- Check slots from an index on. -/
def checkSlots (arena : Arena) : (slot : Nat) → List Node → Result Unit
  | _, [] => .ok ()
  | slot, node :: rest => do
      arena.checkSlot slot node
      arena.checkSlots (slot + 1) rest

/-- Check a whole arena. -/
def validate (arena : Arena) : Result Unit := do
  let root ← arena.rootNode
  require (root.isLive && root.isRoot) (.badRoot arena.root)
  arena.checkSlots 0 arena.slots.toList

end FormulaEdit.Arena
