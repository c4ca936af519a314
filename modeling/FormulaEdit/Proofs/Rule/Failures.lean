import FormulaEdit.Proofs.Result
import FormulaEdit.Rule

/-!
# Failures of lookups and parameters

What rules are made of can fail for many reasons, but never because a replay
took too many changes.  So the failure that reports the limit of a replay comes
from the replay itself.
-/

namespace FormulaEdit

/-- Whether a failure says that a replay took more changes than allowed. -/
def Failure.isReplayLimit : Failure → Bool
  | .replayLimit _ _ _ _ => true
  | _ => false

namespace Result

/-- If a computation fails, it is not because of the limit of a replay. -/
def Unlimited {α : Type} (result : Result α) : Prop :=
  ∀ failure, result = .error failure → failure.isReplayLimit = false

variable {α β : Type}

theorem unlimited_ok (value : α) : Unlimited (.ok value) := by
  intro failure failed
  cases failed

theorem unlimited_error {failure : Failure}
    (other : failure.isReplayLimit = false) :
    Unlimited (.error failure : Result α) := by
  intro again failed
  cases failed
  exact other

theorem Unlimited.bind {first : Result α} {next : α → Result β}
    (before : Unlimited first) (after : ∀ value, Unlimited (next value)) :
    Unlimited (first >>= next) := by
  intro failure failed
  cases first with
  | error cause =>
      cases failed
      exact before _ rfl
  | ok value => exact after value failure failed

theorem Unlimited.map {first : Result α} (before : Unlimited first)
    (change : α → β) : Unlimited (first.map change) := by
  intro failure failed
  cases first with
  | error cause =>
      cases failed
      exact before _ rfl
  | ok value => cases failed

end Result

open Result

namespace Arena

theorem node_unlimited (arena : Arena) (id : Int) :
    Unlimited (arena.node id) := by
  unfold node
  split
  · apply unlimited_ok
  · exact unlimited_error rfl

theorem parentOf_unlimited (arena : Arena) (node : Node) :
    Unlimited (arena.parentOf node) := by
  unfold parentOf
  split
  · apply unlimited_ok
  · apply Unlimited.map
    apply node_unlimited

theorem delete_unlimited (arena : Arena) (node : Node) :
    Unlimited (arena.delete node) := by
  unfold delete
  split
  · apply unlimited_ok
  · exact unlimited_error rfl

theorem climb_unlimited (arena : Arena) (start : Int) (fuel depth : Nat)
    (node : Node) : Unlimited (arena.climb start fuel depth node) := by
  induction fuel generalizing depth node with
  | zero =>
      unfold climb
      split
      · apply unlimited_ok
      · exact unlimited_error rfl
  | succ fuel induction =>
      unfold climb
      split
      · apply unlimited_ok
      apply (arena.node_unlimited node.parent).bind
      intro parent
      split
      · apply induction
      · exact unlimited_error rfl

end Arena

theorem Condition.holds_unlimited (condition : Condition) (arena : Arena)
    (node : Node) : Unlimited (condition.holds arena node) := by
  induction condition with
  | always => apply unlimited_ok
  | tokenIs token => apply unlimited_ok
  | depthIs depth =>
      apply (arena.climb_unlimited node.id (arena.size + 1) 0 node).bind
      intro links
      apply unlimited_ok
  | flagIs flag value => apply unlimited_ok
  | both first second before after =>
      apply before.bind
      intro holds
      split
      · exact after
      · apply unlimited_ok

namespace Rule

theorem inherit_unlimited (arena : Arena) (old : Node) (heir : Int)
    (heirNode : Node) :
    Unlimited (inherit arena old heir heirNode) := by
  unfold inherit
  split
  · apply unlimited_ok
  apply (Arena.node_unlimited _ old.parent).bind
  intro parent
  split
  · apply unlimited_ok
  · exact unlimited_error rfl

theorem Direction.ofParams_unlimited (params : Json.Members) :
    Unlimited (Direction.ofParams params) := by
  unfold Direction.ofParams
  split
  · apply unlimited_ok
  · apply unlimited_ok
  · exact unlimited_error rfl

theorem indexIn_unlimited (id : Int) (list : List Int) :
    Unlimited (indexIn id list) := by
  unfold indexIn
  split
  · apply unlimited_ok
  · exact unlimited_error rfl

theorem adopt_unlimited (parent : Int) (arena : Arena) (ids : List Int) :
    Unlimited (adopt parent arena ids) := by
  induction ids generalizing arena with
  | nil => apply unlimited_ok
  | cons id ids induction =>
      apply (arena.node_unlimited id).bind
      intro node
      apply induction

namespace Replacement

theorem ofParams_unlimited (params : Json.Members) :
    Unlimited (ofParams params) := by
  have source : Unlimited (readSource params) := by
    unfold readSource
    split
    · split
      · exact unlimited_error rfl
      · apply unlimited_ok
    · exact unlimited_error rfl
  have target : Unlimited (readTarget params) := by
    unfold readTarget
    split
    · apply unlimited_ok
    · exact unlimited_error rfl
  have count : Unlimited (readCount params) := by
    unfold readCount
    split
    · apply unlimited_ok
    · exact unlimited_error rfl
  have pattern : ∀ text, Unlimited (readPattern params text) := by
    intro text
    unfold readPattern
    split
    · apply unlimited_ok
    all_goals exact unlimited_error rfl
  apply source.bind
  intro source
  apply target.bind
  intro target
  apply count.bind
  intro count
  apply (pattern source).bind
  intro pattern
  apply unlimited_ok

variable (replacement : Replacement)

theorem onNode_unlimited (node : Node) :
    Unlimited (replacement.onNode node) := by
  have applied : ∀ token, Unlimited (replacement.apply token) := by
    intro token
    unfold apply
    split
    · exact unlimited_error rfl
    split
    · apply unlimited_ok
    · exact unlimited_error rfl
  unfold onNode
  split
  · apply unlimited_ok
  apply (applied _).bind
  intro updated
  simp only
  split
  · apply unlimited_ok
  · exact unlimited_error rfl

theorem onNodes_unlimited (nodes : List Node) :
    Unlimited (replacement.onNodes nodes) := by
  induction nodes with
  | nil => apply unlimited_ok
  | cons node nodes induction =>
      apply (replacement.onNode_unlimited node).bind
      intro first
      apply induction.bind
      intro rest
      apply unlimited_ok

end Replacement

end Rule

end FormulaEdit
