import FormulaEdit.Arena.Basic

/-!
# Nodes under a cursor

The node under a cursor is the deepest live node whose span contains it, and
the first in the order of the slots among equally deep ones.
-/

namespace FormulaEdit.Arena

/-- The deepest of the nodes that contain a position, beginning with the best
one so far and its depth. -/
def deepest (arena : Arena) (position : Position) :
    (best : Option (Node × Nat)) → List Node → Result (Option (Node × Nat))
  | best, [] => .ok best
  | best, node :: rest =>
      if node.span.contains position then do
        let depth ← arena.depth node
        let deeper := match best with
          | none => true
          | some (_, bestDepth) => decide (bestDepth < depth)
        arena.deepest position (if deeper then some (node, depth) else best) rest
      else arena.deepest position best rest

/-- The node under a cursor. -/
def findAt (arena : Arena) (position : Position) : Result (Option Node) := do
  return (← arena.deepest position none arena.liveNodes).map (·.1)

end FormulaEdit.Arena
