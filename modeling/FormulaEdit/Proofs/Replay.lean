import FormulaEdit.Proofs.Arena.Slots
import FormulaEdit.Replay

/-!
# What replaying keeps

A replay is a run of applications that report a change, each at a live node of
the arena at that time.  What every such application of the records keeps is
kept by the whole replay, however long it is.
-/

namespace FormulaEdit

namespace Record

theorem tryAt_changed {record : Record} {arena : Arena} {node : Node}
    {outcome : Outcome} (tried : record.tryAt arena node = .ok outcome)
    (changed : outcome.changed = true) :
    record.action.run arena node.id record.params record.condition =
      .ok outcome := by
  unfold tryAt at tried
  split at tried
  · cases tried
    cases changed
  · exact tried

theorem firstChange_eq_some {record : Record} {arena next : Arena}
    {nodes : List Node}
    (found : record.firstChange arena nodes = .ok (some next)) :
    ∃ node ∈ nodes, ∃ outcome, outcome.changed = true ∧
      outcome.arena = next ∧
      record.action.run arena node.id record.params record.condition =
        .ok outcome := by
  induction nodes with
  | nil => cases found
  | cons node nodes induction =>
      obtain ⟨outcome, tried, rest⟩ := Result.bind_eq_ok_iff.mp found
      cases changed : outcome.changed with
      | true =>
          simp only [changed, if_true] at rest
          cases rest
          exact ⟨node, List.mem_cons_self, outcome, changed, rfl,
            tryAt_changed tried changed⟩
      | false =>
          simp only [changed, Bool.false_eq_true, if_false] at rest
          obtain ⟨later, member, result⟩ := induction rest
          exact ⟨later, List.mem_cons_of_mem node member, result⟩

theorem step_eq_some {record : Record} {arena next : Arena}
    (stepped : record.step arena = .ok (some next)) :
    ∃ node ∈ arena.liveNodes, ∃ outcome, outcome.changed = true ∧
      outcome.arena = next ∧
      record.action.run arena node.id record.params record.condition =
        .ok outcome :=
  firstChange_eq_some stepped

/-- A property that every change by a record keeps. -/
def Keeps (record : Record) (property : Arena → Prop) : Prop :=
  ∀ (arena : Arena) (node : Node) (outcome : Outcome), property arena →
    node ∈ arena.liveNodes →
    record.action.run arena node.id record.params record.condition =
      .ok outcome →
    outcome.changed = true → property outcome.arena

end Record

namespace Replay

theorem settle_keeps {record : Record} {property : Arena → Prop}
    (keeps : record.Keeps property) {exceeded : Failure} {left rest : Nat}
    {arena result : Arena} (holds : property arena)
    (settled : settle record exceeded left arena = .ok (result, rest)) :
    property result := by
  induction left generalizing arena with
  | zero =>
      rw [settle] at settled
      obtain ⟨stepped, step, done⟩ := Result.bind_eq_ok_iff.mp settled
      cases stepped with
      | none =>
          cases done
          exact holds
      | some next => cases done
  | succ left induction =>
      rw [settle] at settled
      obtain ⟨stepped, step, done⟩ := Result.bind_eq_ok_iff.mp settled
      cases stepped with
      | none =>
          cases done
          exact holds
      | some next =>
          obtain ⟨node, live, outcome, changed, rfl, ran⟩ :=
            Record.step_eq_some step
          exact induction (keeps arena node outcome holds live ran changed)
            done

theorem runFrom_keeps {records : List Record} {property : Arena → Prop}
    (keeps : ∀ record ∈ records, record.Keeps property) {budget : Int}
    {index left : Nat} {arena result : Arena} (holds : property arena)
    (ran : runFrom budget index left records arena = .ok result) :
    property result := by
  induction records generalizing index left arena with
  | nil =>
      cases ran
      exact holds
  | cons record records induction =>
      obtain ⟨⟨settled, rest⟩, settles, later⟩ :=
        Result.bind_eq_ok_iff.mp ran
      obtain ⟨head, tail⟩ := List.forall_mem_cons.mp keeps
      exact induction tail (settle_keeps head holds settles) later

end Replay

/-- A replay keeps what every change by one of its records keeps. -/
theorem Stack.replay_keeps {stack : Stack} {property : Arena → Prop}
    (keeps : ∀ record ∈ stack.records, record.Keeps property) {budget : Int}
    {arena result : Arena} (holds : property arena)
    (ran : stack.replay budget arena = .ok result) : property result :=
  Replay.runFrom_keeps keeps holds ran

end FormulaEdit
