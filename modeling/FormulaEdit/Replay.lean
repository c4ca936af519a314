import FormulaEdit.Rule
import FormulaEdit.Stack

/-!
# Replaying a stack

Each record is applied until it changes nothing any more: at the first live
node, in the order of the slots, where it makes a change, and then from the
first node again.  Nothing guarantees that this ends, so the number of changes
is limited by a budget for the whole stack.
-/

namespace FormulaEdit

/-- Apply a record at one node; a move that is not allowed there is no
failure, it changes nothing. -/
def Record.tryAt (record : Record) (arena : Arena) (node : Node) : Result Outcome :=
  match record.action.run arena node.id record.params record.condition with
  | .error (.reorder _ _) => .ok (.unchanged arena)
  | result => result

/-- The arena after the first change that a record makes at one of the nodes. -/
def Record.firstChange (record : Record) (arena : Arena) : List Node → Result (Option Arena)
  | [] => .ok none
  | node :: rest => do
      let outcome ← record.tryAt arena node
      if outcome.changed then return some outcome.arena else record.firstChange arena rest

/-- The arena after one change by a record, if it changes anything. -/
def Record.step (record : Record) (arena : Arena) : Result (Option Arena) :=
  record.firstChange arena arena.liveNodes

namespace Replay

/-- Apply a record until it changes nothing.  `left` is the number of changes
still allowed; what remains of it is returned.  `exceeded` is the failure when
it is not enough. -/
def settle (record : Record) (exceeded : Failure) : (left : Nat) → Arena → Result (Arena × Nat)
  | left, arena => do
      match ← record.step arena with
      | none => return (arena, left)
      | some next =>
          match left with
          | 0 => .error exceeded
          | left + 1 => settle record exceeded left next

/-- The failure when a record takes more changes than allowed. -/
def exceeded (index : Nat) (record : Record) (budget : Int) : Failure :=
  .replayLimit index record.action.name record.condition.text budget

/-- Apply records from an index on. -/
def runFrom (budget : Int) : (index left : Nat) → List Record → Arena → Result Arena
  | _, _, [], arena => .ok arena
  | index, left, record :: rest, arena => do
      let (arena, left) ← settle record (exceeded index record budget) left arena
      runFrom budget (index + 1) left rest arena

end Replay

/-- Apply every record of a stack in order, each until it changes nothing.  A
negative budget allows no change, like zero. -/
def Stack.replay (stack : Stack) (budget : Int) (arena : Arena) : Result Arena :=
  Replay.runFrom budget 0 budget.toNat stack.records arena

end FormulaEdit
