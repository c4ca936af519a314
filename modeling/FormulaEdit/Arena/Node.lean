import FormulaEdit.Span

/-!
# Nodes

A node is one slot of an arena: a token, the ids of its parent and children,
two layout flags and its place in the source.  A slot whose node was deleted
holds a tombstone, so that all other ids stay good.
-/

namespace FormulaEdit

/-- A slot of an arena. -/
structure Node where
  id : Int
  token : String
  parent : Int := -1
  children : List Int := []
  breaksLine : Bool := false
  bracketed : Bool := true
  span : Span := .unknown
deriving DecidableEq, Repr, Inhabited

namespace Node

/-- The parent id of a root. -/
def noParent : Int := -1

/-- The id of a deleted node. -/
def deletedId : Int := -100

/-- The token of a compound that is not headed by an operator.  It is never
printed. -/
def listMarker : String := "list"

/-- The token of an empty compound. -/
def emptyList : String := "()"

/-- The heads that make a compound an operator with operands. -/
def operators : List String := [
    "+", "-", "*", "/", ">", "<", ">=", "<=", "=", "and", "or", "not", "=>", "assert",
    "declare-datatypes", "forall", "exists", "define", "select", "store"]

/-- Whether a token is an operator. -/
def isOperator (token : String) : Bool := operators.contains token

/-- What stands in the slot of a deleted node. -/
def tombstone : Node :=
  { id := deletedId, token := "null-node", parent := deletedId }

/-- Whether a node has not been deleted. -/
def isLive (node : Node) : Bool := node.id != deletedId

/-- Whether a node has no parent. -/
def isRoot (node : Node) : Bool := node.parent == noParent

/-- Whether a node is a list of its children without a head of its own. -/
def isPlainList (node : Node) : Bool := node.token == listMarker && !node.children.isEmpty

end Node

end FormulaEdit
