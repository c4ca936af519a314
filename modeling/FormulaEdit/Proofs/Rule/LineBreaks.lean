import FormulaEdit.Proofs.Rule.Writes
import FormulaEdit.Proofs.RoundTrip

/-!
# Rules and line breaks

A formula is read without line breaks.  Only the rule that toggles them makes
any: every other rule leaves this flag of each node as it is, and the nodes it
adds do not break the line.
-/

namespace FormulaEdit

namespace Arena

/-- No live node breaks the line. -/
def Unbroken (arena : Arena) : Prop :=
  ∀ id node, arena.live? id = some node → node.breaksLine = false

variable {allowed : Flag → Prop} {arena edited : Arena}

theorem Write.unbroken (write : arena.Write allowed edited)
    (fixed : ¬allowed .breaksLine) (unbroken : arena.Unbroken) :
    edited.Unbroken := by
  intro id node live
  obtain ⟨found, alive⟩ := live?_eq_some_iff.mp live
  cases write.wrote found with
  | buried dead =>
      rw [dead]
      rfl
  | @turned before present turns =>
      have liveBefore : before.isLive = true := by
        rw [← alive, Node.isLive, Node.isLive, turns.id]
      have kept : node.breaksLine = before.breaksLine :=
        turns.flags .breaksLine fixed
      rw [kept]
      exact unbroken id before (live?_eq_some_iff.mpr ⟨present, liveBefore⟩)
  | added _ _ _ _ straight => exact straight

theorem Writes.unbroken (writes : arena.Writes allowed edited)
    (fixed : ¬allowed .breaksLine) (unbroken : arena.Unbroken) :
    edited.Unbroken := by
  induction writes with
  | refl => exact unbroken
  | tail _ write induction => exact write.unbroken fixed induction

end Arena

/-- Only the rule that toggles line breaks makes any. -/
theorem Action.unbroken_of_run {action : Action} {arena : Arena} {focus : Int}
    {params : Json.Members} {condition : Condition} {outcome : Outcome}
    (notBreak : action ≠ .toggleBreak)
    (ran : action.run arena focus params condition = .ok outcome)
    (unbroken : arena.Unbroken) : outcome.arena.Unbroken := by
  have toggles : ∀ flag : Flag, action = flag.toggle → flag ≠ .breaksLine := by
    rintro flag same rfl
    exact notBreak same
  cases (Action.changed_of_run ran).wrote toggles with
  | unchanged => exact unbroken
  | edited writes =>
      exact Arena.Writes.unbroken (writes.tail .refresh) (fun moved => moved rfl)
        unbroken

end FormulaEdit
