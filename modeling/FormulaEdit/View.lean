import FormulaEdit.Arena.Node

/-!
# Views

The view of an arena is the graph that is drawn of it: a labelled box for each
live node and an edge to each of its children, in the order of the slots.
-/

namespace FormulaEdit

/-- A labelled box. -/
structure Box where
  id : Int
  label : String
deriving DecidableEq, Repr

/-- A numbered edge from a parent to a child. -/
structure Edge where
  id : Nat
  source : Int
  target : Int
deriving DecidableEq, Repr

/-- The drawn graph of an arena. -/
structure View where
  boxes : List Box := []
  edges : List Edge := []
deriving DecidableEq, Repr, Inhabited

/-- The label of a node: brackets and a line-end mark show its flags. -/
def Node.label (node : Node) : String :=
  (if node.bracketed then "(" ++ node.token ++ ")" else node.token) ++
    (if node.breaksLine then "↵" else "")

/-- The ends of the edges of a node. -/
def Node.links (node : Node) : List (Int × Int) :=
  node.children.map fun child => (node.id, child)

/-- Number edges in order. -/
def numberEdges : (first : Nat) → List (Int × Int) → List Edge
  | _, [] => []
  | first, (source, target) :: rest => ⟨first, source, target⟩ :: numberEdges (first + 1) rest

/-- The view of the slots of an arena. -/
def View.ofNodes (nodes : List Node) : View :=
  let live := nodes.filter (·.isLive)
  { boxes := live.map fun node => ⟨node.id, node.label⟩
    edges := numberEdges 0 (live.flatMap (·.links)) }

end FormulaEdit
