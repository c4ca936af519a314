import FormulaEdit.Arena.Build
import FormulaEdit.Proofs.Replay
import FormulaEdit.Proofs.Rule.Changes

/-!
# Budgets of replays

Without a budget a replay is a single run.  The first of the records that are
left makes changes until it has none to make, then the next one does.  The run
ends when no record is left or when a rule fails, or it never ends.

A budget changes nothing about this run but where it is cut short.  So a
result does not depend on the budget, and the runs of two stacks make up the
run of both.
-/

namespace FormulaEdit

open Result

namespace Record

theorem tryAt_unlimited (record : Record) (arena : Arena) (node : Node) :
    Unlimited (record.tryAt arena node) := by
  unfold tryAt
  split
  · apply unlimited_ok
  · apply Action.run_unlimited

theorem step_unlimited (record : Record) (arena : Arena) :
    Unlimited (record.step arena) := by
  unfold step
  induction arena.liveNodes with
  | nil => apply unlimited_ok
  | cons node nodes induction =>
      apply (record.tryAt_unlimited arena node).bind
      intro outcome
      split
      · apply unlimited_ok
      · exact induction

theorem tryAt_of_ok {record : Record} {arena : Arena} {node : Node}
    {outcome : Outcome}
    (ran : record.action.run arena node.id record.params record.condition =
      .ok outcome) : record.tryAt arena node = .ok outcome := by
  rw [tryAt, ran]

theorem tryAt_of_reorder {record : Record} {arena : Arena} {node : Node}
    {token : String} {parent : Option String}
    (refused :
      record.action.run arena node.id record.params record.condition =
        .error (.reorder token parent)) :
    record.tryAt arena node = .ok (.unchanged arena) := by
  rw [tryAt, refused]

/-- A record makes no change at a node: its rule reports none, or it is a move
that is not allowed there. -/
def IdleAt (record : Record) (arena : Arena) (node : Node) : Prop :=
  (∃ outcome, record.action.run arena node.id record.params record.condition =
      .ok outcome ∧ outcome.changed = false) ∨
    ∃ token parent,
      record.action.run arena node.id record.params record.condition =
        .error (.reorder token parent)

theorem idleAt_of_tryAt {record : Record} {arena : Arena} {node : Node}
    {outcome : Outcome} (tried : record.tryAt arena node = .ok outcome)
    (idle : outcome.changed = false) : record.IdleAt arena node := by
  unfold tryAt at tried
  split at tried
  next token parent refused => exact .inr ⟨token, parent, refused⟩
  next => exact .inl ⟨outcome, tried, idle⟩

theorem firstChange_eq_none {record : Record} {arena : Arena}
    {nodes : List Node} (settled : record.firstChange arena nodes = .ok none) :
    ∀ node ∈ nodes, record.IdleAt arena node := by
  induction nodes with
  | nil =>
      intro node member
      cases member
  | cons first nodes induction =>
      obtain ⟨outcome, tried, rest⟩ := Result.bind_eq_ok_iff.mp settled
      cases changed : outcome.changed with
      | true =>
          rw [changed, if_pos rfl] at rest
          cases rest
      | false =>
          rw [changed, if_neg Bool.false_ne_true] at rest
          intro node member
          rcases List.mem_cons.mp member with rfl | later
          · exact idleAt_of_tryAt tried changed
          · exact induction rest node later

theorem exists_firstChange {record : Record} {arena : Arena}
    {nodes : List Node}
    (each : ∀ node ∈ nodes, ∃ outcome,
      record.tryAt arena node = .ok outcome) :
    ∃ found, record.firstChange arena nodes = .ok found := by
  induction nodes with
  | nil => exact ⟨none, rfl⟩
  | cons node nodes induction =>
      obtain ⟨⟨outcome, tried⟩, others⟩ := List.forall_mem_cons.mp each
      obtain ⟨found, later⟩ := induction others
      cases changed : outcome.changed with
      | true =>
          refine ⟨some outcome.arena, ?_⟩
          apply Result.bind_eq_ok_iff.mpr
          exact ⟨outcome, tried, by rw [changed, if_pos rfl]; rfl⟩
      | false =>
          refine ⟨found, ?_⟩
          apply Result.bind_eq_ok_iff.mpr
          exact ⟨outcome, tried, by
            rw [changed, if_neg Bool.false_ne_true]; exact later⟩

theorem exists_first {record : Record} {arena next : Arena}
    {nodes : List Node}
    (found : record.firstChange arena nodes = .ok (some next)) :
    ∃ before node after outcome, nodes = before ++ node :: after ∧
      (∀ earlier ∈ before, record.IdleAt arena earlier) ∧
      outcome.changed = true ∧ outcome.arena = next ∧
      record.action.run arena node.id record.params record.condition =
        .ok outcome := by
  induction nodes with
  | nil => cases found
  | cons node nodes induction =>
      obtain ⟨outcome, tried, rest⟩ := Result.bind_eq_ok_iff.mp found
      cases changed : outcome.changed with
      | true =>
          rw [changed, if_pos rfl] at rest
          cases rest
          exact ⟨[], node, nodes, outcome, rfl, by simp, changed, rfl,
            tryAt_changed tried changed⟩
      | false =>
          rw [changed, if_neg Bool.false_ne_true] at rest
          obtain ⟨before, first, after, made, rfl, idle, others⟩ :=
            induction rest
          refine ⟨node :: before, first, after, made, rfl, ?_, others⟩
          exact List.forall_mem_cons.mpr
            ⟨idleAt_of_tryAt tried changed, idle⟩

end Record

namespace Replay

/-- Where a replay stands: the records that may still make changes, the first
of them being at work, and the arena so far. -/
structure State where
  pending : List Record
  arena : Arena

/-- A replay without a budget gets from one state to another, and makes this
many changes on the way. -/
inductive Reaches : State → (changes : Nat) → State → Prop where
  | refl (state : State) : Reaches state 0 state
  | change {record : Record} {rest : List Record} {arena next : Arena}
      {changes : Nat} {final : State}
      (stepped : record.step arena = .ok (some next))
      (later : Reaches ⟨record :: rest, next⟩ changes final) :
      Reaches ⟨record :: rest, arena⟩ (changes + 1) final
  | settle {record : Record} {rest : List Record} {arena : Arena}
      {changes : Nat} {final : State}
      (stepped : record.step arena = .ok none)
      (later : Reaches ⟨rest, arena⟩ changes final) :
      Reaches ⟨record :: rest, arena⟩ changes final

/-- A replay ends when no record is left, and when a rule fails. -/
inductive State.Ends : State → Result Arena → Prop where
  | returned (arena : Arena) : Ends ⟨[], arena⟩ (.ok arena)
  | failed {record : Record} {rest : List Record} {arena : Arena}
      {failure : Failure} (stepped : record.step arena = .error failure) :
      Ends ⟨record :: rest, arena⟩ (.error failure)

/-- A replay without a budget makes this many changes and then ends. -/
def State.EndsAfter (start : State) (changes : Nat) (outcome : Result Arena) :
    Prop :=
  ∃ final, Reaches start changes final ∧ final.Ends outcome

theorem State.Ends.unlimited {state : State} {outcome : Result Arena}
    (ends : state.Ends outcome) : Unlimited outcome := by
  cases ends with
  | returned arena => apply unlimited_ok
  | failed stepped =>
      apply unlimited_error
      exact Record.step_unlimited _ _ _ stepped

theorem State.EndsAfter.unlimited {start : State} {changes : Nat}
    {outcome : Result Arena} (ends : start.EndsAfter changes outcome) :
    Unlimited outcome := by
  obtain ⟨_, _, last⟩ := ends
  exact last.unlimited

theorem State.endsAfter_ok_iff {start : State} {changes : Nat}
    {result : Arena} :
    start.EndsAfter changes (.ok result) ↔
      Reaches start changes ⟨[], result⟩ := by
  constructor
  · intro ⟨final, reaches, ends⟩
    cases ends
    exact reaches
  · intro reaches
    exact ⟨_, reaches, .returned result⟩

namespace Reaches

theorem trans {start middle final : State} {before after : Nat}
    (first : Reaches start before middle)
    (second : Reaches middle after final) :
    Reaches start (before + after) final := by
  induction first with
  | refl =>
      rw [Nat.zero_add]
      exact second
  | change stepped _ induction =>
      rw [Nat.add_right_comm]
      exact .change stepped (induction second)
  | settle stepped _ induction => exact .settle stepped (induction second)

theorem exists_earlier {start final : State} {changes fewer : Nat}
    (reaches : Reaches start changes final) (less : fewer ≤ changes) :
    ∃ middle, Reaches start fewer middle := by
  induction reaches generalizing fewer with
  | refl state =>
      obtain rfl := Nat.le_zero.mp less
      exact ⟨state, .refl state⟩
  | change stepped _ induction =>
      cases fewer with
      | zero => exact ⟨_, .refl _⟩
      | succ fewer =>
          obtain ⟨middle, earlier⟩ := induction (Nat.le_of_succ_le_succ less)
          exact ⟨middle, .change stepped earlier⟩
  | settle stepped _ induction =>
      obtain ⟨middle, earlier⟩ := induction less
      exact ⟨middle, .settle stepped earlier⟩

theorem append {start final : State} {changes : Nat}
    (reaches : Reaches start changes final) (behind : List Record) :
    Reaches ⟨start.pending ++ behind, start.arena⟩ changes
      ⟨final.pending ++ behind, final.arena⟩ := by
  induction reaches with
  | refl => exact .refl _
  | change stepped _ induction => exact .change stepped induction
  | settle stepped _ induction => exact .settle stepped induction

/-- A run through two lists of records goes through the first one first. -/
theorem exists_middle {start final : State} {changes : Nat}
    (reaches : Reaches start changes final) (done : final.pending = [])
    {first second : List Record} (both : start.pending = first ++ second) :
    ∃ before after middle, before + after = changes ∧
      Reaches ⟨first, start.arena⟩ before ⟨[], middle⟩ ∧
      Reaches ⟨second, middle⟩ after final := by
  induction reaches generalizing first with
  | refl state =>
      rw [done] at both
      obtain ⟨rfl, rfl⟩ := List.append_eq_nil_iff.mp both.symm
      obtain ⟨pending, arena⟩ := state
      cases done
      exact ⟨0, 0, arena, rfl, .refl _, .refl _⟩
  | @change record rest arena next changes final stepped later induction =>
      cases first with
      | nil =>
          cases both
          exact ⟨0, changes + 1, arena, Nat.zero_add _, .refl _,
            .change stepped later⟩
      | cons head first =>
          obtain ⟨before, after, middle, total, one, other⟩ :=
            induction done both
          cases both
          refine ⟨before + 1, after, middle, ?_, .change stepped one, other⟩
          omega
  | @settle record rest arena changes final stepped later induction =>
      cases first with
      | nil =>
          cases both
          exact ⟨0, changes, arena, Nat.zero_add _, .refl _,
            .settle stepped later⟩
      | cons head first =>
          cases both
          obtain ⟨before, after, middle, total, one, other⟩ :=
            induction done rfl
          exact ⟨before, after, middle, total, .settle stepped one, other⟩

theorem settled {start final : State} {record : Record} {changes : Nat}
    (reaches : Reaches start changes final) (alone : start.pending = [record])
    (done : final.pending = []) : record.step final.arena = .ok none := by
  induction reaches with
  | refl state =>
      rw [alone] at done
      cases done
  | change stepped _ induction =>
      cases alone
      exact induction rfl done
  | settle stepped later _ =>
      cases alone
      cases later
      exact stepped

end Reaches

section Cutting

variable {budget : Int} {index left : Nat} {record : Record}
  {rest : List Record} {arena next : Arena}

theorem runFrom_of_failed {failure : Failure}
    (stepped : record.step arena = .error failure) :
    runFrom budget index left (record :: rest) arena = .error failure := by
  rw [runFrom, settle, stepped]
  rfl

theorem runFrom_of_settled (stepped : record.step arena = .ok none) :
    runFrom budget index left (record :: rest) arena =
      runFrom budget (index + 1) left rest arena := by
  rw [runFrom, settle, stepped]
  rfl

theorem runFrom_of_change (stepped : record.step arena = .ok (some next)) :
    runFrom budget index (left + 1) (record :: rest) arena =
      runFrom budget index left (record :: rest) next := by
  rw [runFrom, settle, stepped, runFrom]
  rfl

theorem runFrom_of_excess (stepped : record.step arena = .ok (some next)) :
    runFrom budget index 0 (record :: rest) arena =
      .error (exceeded index record budget) := by
  rw [runFrom, settle, stepped]
  rfl

/-- The changes of a run are taken from the budget. -/
theorem Reaches.runFrom_eq {start final : State} {changes : Nat}
    (reaches : Reaches start changes final) (budget : Int)
    (index left : Nat) :
    ∃ later, runFrom budget index (changes + left) start.pending start.arena =
      runFrom budget later left final.pending final.arena := by
  induction reaches generalizing index with
  | refl state =>
      rw [Nat.zero_add]
      exact ⟨index, rfl⟩
  | change stepped _ induction =>
      obtain ⟨later, same⟩ := induction index
      rw [Nat.add_right_comm, runFrom_of_change stepped]
      exact ⟨later, same⟩
  | settle stepped _ induction =>
      obtain ⟨later, same⟩ := induction (index + 1)
      rw [runFrom_of_settled stepped]
      exact ⟨later, same⟩

theorem State.Ends.runFrom_eq {state : State} {outcome : Result Arena}
    (ends : state.Ends outcome) :
    runFrom budget index left state.pending state.arena = outcome := by
  cases ends with
  | returned => rfl
  | failed stepped => exact runFrom_of_failed stepped

theorem State.EndsAfter.runFrom_eq {start : State} {changes : Nat}
    {outcome : Result Arena} (ends : start.EndsAfter changes outcome)
    (enough : changes ≤ left) :
    runFrom budget index left start.pending start.arena = outcome := by
  obtain ⟨final, reaches, last⟩ := ends
  obtain ⟨spare, rfl⟩ := Nat.exists_eq_add_of_le enough
  obtain ⟨later, same⟩ := reaches.runFrom_eq budget index spare
  rw [same]
  exact last.runFrom_eq

theorem Reaches.runFrom_exceeds {start final : State} {changes : Nat}
    (reaches : Reaches start changes final) (excess : changes = left + 1)
    (budget : Int) (index : Nat) :
    ∃ later record, runFrom budget index left start.pending start.arena =
      .error (exceeded later record budget) := by
  induction reaches generalizing index left with
  | refl => cases excess
  | @change record _ _ _ _ _ stepped _ induction =>
      cases left with
      | zero => exact ⟨index, record, runFrom_of_excess stepped⟩
      | succ left =>
          rw [runFrom_of_change stepped]
          exact induction (Nat.succ.inj excess) index
  | settle stepped _ induction =>
      rw [runFrom_of_settled stepped]
      exact induction excess (index + 1)

/-- Every run ends within a budget or makes more changes. -/
theorem State.ends_or_exceeds (start : State) (left : Nat) :
    (∃ changes outcome, changes ≤ left ∧ start.EndsAfter changes outcome) ∨
      ∃ final, Reaches start (left + 1) final := by
  obtain ⟨pending, arena⟩ := start
  induction pending generalizing left arena with
  | nil =>
      exact .inl ⟨0, .ok arena, Nat.zero_le _, _, .refl _, .returned arena⟩
  | cons record rest others =>
      have settled : ∀ left arena, record.step arena = .ok none →
          (∃ changes outcome, changes ≤ left ∧
            State.EndsAfter ⟨record :: rest, arena⟩ changes outcome) ∨
          ∃ final, Reaches ⟨record :: rest, arena⟩ (left + 1) final := by
        intro left arena stepped
        rcases others left arena with
          ⟨changes, outcome, enough, final, reaches, ends⟩ | ⟨final, reaches⟩
        · exact .inl ⟨changes, outcome, enough, final,
            .settle stepped reaches, ends⟩
        · exact .inr ⟨final, .settle stepped reaches⟩
      induction left generalizing arena with
      | zero =>
          match stepped : record.step arena with
          | .error failure =>
              exact .inl ⟨0, _, Nat.le_refl 0, _, .refl _, .failed stepped⟩
          | .ok none => exact settled 0 arena stepped
          | .ok (some next) => exact .inr ⟨_, .change stepped (.refl _)⟩
      | succ left induction =>
          match stepped : record.step arena with
          | .error failure =>
              exact .inl ⟨0, _, Nat.zero_le _, _, .refl _, .failed stepped⟩
          | .ok none => exact settled (left + 1) arena stepped
          | .ok (some next) =>
              rcases induction next with
                ⟨changes, outcome, enough, final, reaches, ends⟩ |
                ⟨final, reaches⟩
              · exact .inl ⟨changes + 1, outcome, Nat.succ_le_succ enough,
                  final, .change stepped reaches, ends⟩
              · exact .inr ⟨final, .change stepped reaches⟩

theorem runFrom_eq_iff (start : State) {outcome : Result Arena}
    (own : Unlimited outcome) :
    runFrom budget index left start.pending start.arena = outcome ↔
      ∃ changes, changes ≤ left ∧ start.EndsAfter changes outcome := by
  constructor
  · intro ran
    rcases start.ends_or_exceeds left with
      ⟨changes, ending, enough, ends⟩ | ⟨final, reaches⟩
    · rw [ends.runFrom_eq enough] at ran
      rw [← ran]
      exact ⟨changes, enough, ends⟩
    · obtain ⟨later, record, cut⟩ :=
        reaches.runFrom_exceeds rfl budget index
      rw [cut] at ran
      cases own _ ran.symm
  · intro ⟨changes, enough, ends⟩
    exact ends.runFrom_eq enough

theorem runFrom_exceeds_iff (start : State) (budget : Int)
    (index left : Nat) :
    (∃ failure, failure.isReplayLimit = true ∧
        runFrom budget index left start.pending start.arena =
          .error failure) ↔
      ∃ changes final, left < changes ∧ Reaches start changes final := by
  constructor
  · intro ⟨failure, limit, ran⟩
    rcases start.ends_or_exceeds left with
      ⟨changes, outcome, enough, ends⟩ | ⟨final, reaches⟩
    · rw [ends.runFrom_eq enough] at ran
      rw [ends.unlimited failure ran] at limit
      cases limit
    · exact ⟨left + 1, final, Nat.lt_succ_self left, reaches⟩
  · intro ⟨changes, final, excess, reaches⟩
    obtain ⟨middle, earlier⟩ := reaches.exists_earlier excess
    obtain ⟨later, record, cut⟩ :=
      earlier.runFrom_exceeds rfl budget index
    exact ⟨_, rfl, cut⟩

end Cutting

theorem State.EndsAfter.unique {start : State} {changes others : Nat}
    {outcome other : Result Arena} (ends : start.EndsAfter changes outcome)
    (again : start.EndsAfter others other) :
    changes = others ∧ outcome = other := by
  have notLess : ∀ {fewer more : Nat} {early late : Result Arena},
      start.EndsAfter fewer early → start.EndsAfter more late →
      more ≤ fewer := by
    intro fewer more early late first second
    apply Nat.le_of_not_lt
    intro less
    obtain ⟨final, reaches, _⟩ := second
    obtain ⟨failure, limit, cut⟩ := (runFrom_exceeds_iff start 0 0 fewer).mpr
      ⟨more, final, less, reaches⟩
    rw [first.runFrom_eq (Nat.le_refl fewer)] at cut
    rw [first.unlimited failure cut] at limit
    cases limit
  have same := Nat.le_antisymm (notLess again ends) (notLess ends again)
  refine ⟨same, ?_⟩
  have one : runFrom 0 0 changes start.pending start.arena = outcome :=
    ends.runFrom_eq (Nat.le_refl changes)
  rw [← one]
  exact again.runFrom_eq (Nat.le_of_eq same.symm)

end Replay

namespace Stack

/-- Where the replay of a stack starts. -/
def start (stack : Stack) (arena : Arena) : Replay.State :=
  ⟨stack.records, arena⟩

variable {stack : Stack} {arena result : Arena} {budget : Nat}

theorem replay_eq_iff {outcome : Result Arena} (own : Unlimited outcome) :
    stack.replay budget arena = outcome ↔
      ∃ changes, changes ≤ budget ∧
        (stack.start arena).EndsAfter changes outcome := by
  unfold replay
  rw [Int.toNat_natCast]
  exact Replay.runFrom_eq_iff (stack.start arena) own

theorem replay_eq_ok_iff :
    stack.replay budget arena = .ok result ↔
      ∃ changes, changes ≤ budget ∧
        Replay.Reaches (stack.start arena) changes ⟨[], result⟩ := by
  rw [replay_eq_iff (unlimited_ok result)]
  simp only [Replay.State.endsAfter_ok_iff]

theorem replay_exceeds_iff :
    (∃ failure, failure.isReplayLimit = true ∧
        stack.replay budget arena = .error failure) ↔
      ∃ changes final, budget < changes ∧
        Replay.Reaches (stack.start arena) changes final := by
  unfold replay
  rw [Int.toNat_natCast]
  exact Replay.runFrom_exceeds_iff (stack.start arena) budget 0 budget

theorem replay_append_iff {first second : Stack} :
    ({ records := first.records ++ second.records } : Stack).replay budget
        arena = .ok result ↔
      ∃ (before after : Nat) (middle : Arena), before + after = budget ∧
        first.replay before arena = .ok middle ∧
        second.replay after middle = .ok result := by
  simp only [replay_eq_ok_iff]
  constructor
  · intro ⟨changes, enough, reaches⟩
    obtain ⟨before, after, middle, total, one, other⟩ :=
      reaches.exists_middle rfl rfl
    refine ⟨before, budget - before, middle, by omega, ?_, ?_⟩
    · exact ⟨before, Nat.le_refl before, one⟩
    · exact ⟨after, by omega, other⟩
  · intro ⟨before, after, middle, total, ⟨one, oneEnough, first⟩,
      ⟨other, otherEnough, last⟩⟩
    exact ⟨one + other, by omega, (first.append second.records).trans last⟩

end Stack

/-- A replay is one run, which ends in one way or makes any number of changes.
A budget tells apart whether the run makes more changes than that: if not, the
replay gives what the run ends with, and otherwise it fails because of the
limit.  Hence results do not depend on the budget, the budget of two stacks
can be divided between them, and a record that was replayed changes nothing
any more. -/
theorem budget_cuts_replay_short :
    (∀ (stack : Stack) (arena : Arena),
      ((∃ changes outcome, (stack.start arena).EndsAfter changes outcome ∧
          ∀ others other, (stack.start arena).EndsAfter others other →
            others = changes ∧ other = outcome) ∨
        ∀ changes, ∃ final,
          Replay.Reaches (stack.start arena) changes final) ∧
      ∀ budget : Nat,
        (∀ outcome, Unlimited outcome →
          (stack.replay budget arena = outcome ↔
            ∃ changes, changes ≤ budget ∧
              (stack.start arena).EndsAfter changes outcome)) ∧
        ((∃ failure, failure.isReplayLimit = true ∧
            stack.replay budget arena = .error failure) ↔
          ∃ changes final, budget < changes ∧
            Replay.Reaches (stack.start arena) changes final)) ∧
    (∀ (stack : Stack) (arena result : Arena) (budget more : Nat),
      stack.replay budget arena = .ok result → budget ≤ more →
      stack.replay more arena = .ok result) ∧
    (∀ (first second : Stack) (arena result : Arena) (budget : Nat),
      ({ records := first.records ++ second.records } : Stack).replay budget
          arena = .ok result ↔
        ∃ (before after : Nat) (middle : Arena), before + after = budget ∧
          first.replay before arena = .ok middle ∧
          second.replay after middle = .ok result) ∧
    (∀ (record : Record) (arena result : Arena) (budget : Nat),
      ({ records := [record] } : Stack).replay budget arena = .ok result →
      (∀ node ∈ result.liveNodes, record.IdleAt result node) ∧
        ∀ again : Nat,
          ({ records := [record] } : Stack).replay again result =
            .ok result) := by
  refine ⟨?_, ?_, ?_, ?_⟩
  · intro stack arena
    refine ⟨?_, ?_⟩
    · by_cases ending : ∃ changes outcome,
          (stack.start arena).EndsAfter changes outcome
      · obtain ⟨changes, outcome, ends⟩ := ending
        exact .inl ⟨changes, outcome, ends,
          fun others other again => again.unique ends⟩
      · right
        intro changes
        rcases (stack.start arena).ends_or_exceeds changes with
          ⟨total, outcome, _, ends⟩ | ⟨final, reaches⟩
        · exact absurd ⟨total, outcome, ends⟩ ending
        · exact reaches.exists_earlier (Nat.le_succ changes)
    · intro budget
      exact ⟨fun outcome => Stack.replay_eq_iff, Stack.replay_exceeds_iff⟩
  · intro stack arena result budget more ran enough
    obtain ⟨changes, within, reaches⟩ := Stack.replay_eq_ok_iff.mp ran
    exact Stack.replay_eq_ok_iff.mpr
      ⟨changes, Nat.le_trans within enough, reaches⟩
  · intro first second arena result budget
    exact Stack.replay_append_iff
  · intro record arena result budget ran
    obtain ⟨changes, _, reaches⟩ := Stack.replay_eq_ok_iff.mp ran
    have settled := reaches.settled rfl rfl
    refine ⟨Record.firstChange_eq_none settled, ?_⟩
    intro again
    exact Stack.replay_eq_ok_iff.mpr
      ⟨0, Nat.zero_le again, .settle settled (.refl _)⟩

/-- In `(or (not (not p)) q)` a squash and an implication take one change
each, so a budget of two is enough for both, and one of ten gives the same. -/
theorem budget_cuts_replay_short_or :
    ∃ (squash imply : Record) (start middle result : Arena),
      Arena.ofText "(or (not (not p)) q)" = .ok start ∧
      ({ records := [squash] } : Stack).replay (1 : Nat) start =
        .ok middle ∧
      ({ records := [imply] } : Stack).replay (1 : Nat) middle =
        .ok result ∧
      result.liveNodes.map Node.token = ["=>", "p", "q", "not", "or"] ∧
      ({ records := [squash, imply] } : Stack).replay (2 : Nat) start =
        .ok result ∧
      ({ records := [squash, imply] } : Stack).replay (10 : Nat) start =
        .ok result ∧
      (∀ node ∈ result.liveNodes, imply.IdleAt result node) ∧
      ({ records := [imply] } : Stack).replay (0 : Nat) result =
        .ok result := by
  let squash : Record := { action := .squashNegation }
  let imply : Record :=
    { action := .toImplication, condition := .tokenIs "q" }
  have shown : (do
      let start ← Arena.ofText "(or (not (not p)) q)"
      let middle ← ({ records := [squash] } : Stack).replay (1 : Nat) start
      let result ← ({ records := [imply] } : Stack).replay (1 : Nat) middle
      return result.liveNodes.map Node.token).toOption =
        some ["=>", "p", "q", "not", "or"] := by
    decide +kernel
  obtain ⟨start, read, rest⟩ :=
    bind_eq_ok_iff.mp (toOption_eq_some_iff.mp shown)
  obtain ⟨middle, squashed, rest⟩ := bind_eq_ok_iff.mp rest
  obtain ⟨result, implied, last⟩ := bind_eq_ok_iff.mp rest
  have tokens := Except.ok.inj last
  have both := (budget_cuts_replay_short.2.2.1 { records := [squash] }
    { records := [imply] } start result 2).mpr
    ⟨1, 1, middle, rfl, squashed, implied⟩
  have more := budget_cuts_replay_short.2.1 _ start result 2 10 both
    (by decide)
  have settled := budget_cuts_replay_short.2.2.2 imply middle result 1 implied
  exact ⟨squash, imply, start, middle, result, read, squashed, implied,
    tokens, both, more, settled.1, settled.2 0⟩

end FormulaEdit
