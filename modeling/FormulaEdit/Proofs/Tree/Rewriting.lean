import FormulaEdit.Proofs.Tree
import FormulaEdit.Rule

/-!
# Rewriting trees

What each rule does to a formula, said of trees and without ids of parents or
slots.  All rules but the replacement change one subtree and leave the context
around it alone; the replacement changes tokens and nothing else.
-/

namespace FormulaEdit

/-- The token of a node after a replacement.  Plain lists, that is nodes with
the marker and with operands, keep their marker. -/
def Rule.Replacement.tokenAfter (replacement : Rule.Replacement)
    (token : String) (childless : Bool) : Result String :=
  if token == Node.listMarker && !childless then .ok token
  else (replacement.apply token.toList).map String.ofList

namespace Tree

/-- The label of a node that a rule adds to an arena of this size. -/
def added (size : Nat) (token : String) : Label :=
  { id := size, token := token }

mutual

/-- Replace inside the tokens of a tree. -/
def substitute (replacement : Rule.Replacement) : Tree → Result Tree
  | .node label operands => do
      let token ← replacement.tokenAfter label.token operands.isEmpty
      let operands ← substituteAll replacement operands
      return .node { label with token := token } operands

/-- Replace inside the tokens of a list of trees. -/
def substituteAll (replacement : Rule.Replacement) :
    List Tree → Result (List Tree)
  | [] => .ok []
  | tree :: trees => do
      let tree ← substitute replacement tree
      let trees ← substituteAll replacement trees
      return tree :: trees

end

end Tree

/-- What a rule makes of a tree.  `focus` is the id that it is applied at and
`size` the number of slots, which names the nodes that it adds. -/
inductive Rewrites (params : Json.Members) (focus : Int) (size : Nat) :
    Action → Tree → Tree → Prop where
  | cancel (context : Context) {outer inner : Label} (heir : Tree)
      (others extras : List Tree) :
      outer.id = focus → outer.token = "not" → inner.token = "not" →
      Rewrites params focus size .squashNegation
        (context.plug (.node outer (.node inner (heir :: others) :: extras)))
        (context.plug heir)
  | absorb (context : Context) {outer inner : Label} {token : String}
      (operands extras : List Tree) :
      outer.id = focus → outer.token = "not" →
      (inner.token = "<" ∧ token = ">=" ∨ inner.token = ">" ∧ token = "<=") →
      Rewrites params focus size .squashNegation
        (context.plug (.node outer (.node inner operands :: extras)))
        (context.plug (.node { inner with token := token } operands))
  | moveLeft (context : Context) {label : Label} (before : List Tree)
      (neighbour moved : Tree) (after : List Tree) :
      moved.id = focus → label.token ∈ ["+", "*", "=", "and", "or"] →
      params.get? "direction" = some (.str "l") →
      Rewrites params focus size .move
        (context.plug (.node label (before ++ neighbour :: moved :: after)))
        (context.plug (.node label (before ++ moved :: neighbour :: after)))
  | moveRight (context : Context) {label : Label} (before : List Tree)
      (moved neighbour : Tree) (after : List Tree) :
      moved.id = focus → label.token ∈ ["+", "*", "=", "and", "or"] →
      params.get? "direction" = some (.str "r") →
      Rewrites params focus size .move
        (context.plug (.node label (before ++ moved :: neighbour :: after)))
        (context.plug (.node label (before ++ neighbour :: moved :: after)))
  | flip (context : Context) {label : Label} {token : String}
      (first second : Tree) :
      label.id = focus →
      (label.token, token) ∈
        [("=", "="), ("<", ">="), (">", "<="), (">=", "<"), ("<=", ">")] →
      Rewrites params focus size .flipComparison
        (context.plug (.node label [first, second]))
        (context.plug (.node { label with token := token } [second, first]))
  | imply (context : Context) {label : Label} (before : List Tree)
      (branch : Tree) (after : List Tree) :
      branch.id = focus → label.token = "or" →
      Rewrites params focus size .toImplication
        (context.plug (.node label (before ++ branch :: after)))
        (context.plug (.node { label with token := "=>" }
          [.node (Tree.added size "not") [branch],
            .node (Tree.added (size + 1) "or") (before ++ after)]))
  | substitute {replacement : Rule.Replacement} {before after : Tree} :
      Rule.Replacement.ofParams params = .ok replacement →
      before.substitute replacement = .ok after →
      Rewrites params focus size .replace before after
  | toggleBreak (context : Context) {label : Label} (operands : List Tree) :
      label.id = focus →
      Rewrites params focus size .toggleBreak
        (context.plug (.node label operands))
        (context.plug
          (.node { label with breaksLine := !label.breaksLine } operands))
  | toggleBracket (context : Context) {label : Label} (operands : List Tree) :
      label.id = focus →
      Rewrites params focus size .toggleBracket
        (context.plug (.node label operands))
        (context.plug
          (.node { label with bracketed := !label.bracketed } operands))

end FormulaEdit
