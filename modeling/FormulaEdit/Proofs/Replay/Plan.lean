import FormulaEdit.Proofs.Replay.Budget

/-!
# Replays that follow a plan

A replay makes one change at a time and begins each time from the first node.
For some records it can be said beforehand what comes of this.  A plan gives
the number of changes that a record has to make in an arena, and what becomes
of each slot in the end.  If every change leaves one less to make and the same
end for every slot, the replay makes just this number of changes and ends as
if all slots had been changed at once.
-/

namespace FormulaEdit

/-- Change all slots at once. -/
def Arena.mapSlots (arena : Arena) (change : Node → Node) : Arena :=
  refresh { arena with slots := arena.slots.map change }

/-- How many changes a record has to make in an arena, and what becomes of
each slot. -/
structure Plan where
  work : Arena → Nat
  change : Arena → Node → Node

namespace Plan

/-- The arena at the end.  Without a change the view is not drawn anew. -/
def result (plan : Plan) (arena : Arena) : Arena :=
  if plan.work arena = 0 then arena else arena.mapSlots (plan.change arena)

/-- Nothing is left to do. -/
structure Settled (plan : Plan) (record : Record) (arena : Arena) : Prop where
  stepped : record.step arena = .ok none
  work : plan.work arena = 0
  slots : arena.slots.map (plan.change arena) = arena.slots

/-- One change is made, and the rest of the plan stays. -/
structure Advances (plan : Plan) (record : Record) (arena next : Arena) :
    Prop where
  stepped : record.step arena = .ok (some next)
  work : plan.work next + 1 = plan.work arena
  fresh : next.refresh = next
  root : next.root = arena.root
  slots : next.slots.map (plan.change next) =
    arena.slots.map (plan.change arena)

/-- In every good arena the record has settled, or it advances to another good
one. -/
def Guides (plan : Plan) (record : Record) (good : Arena → Prop) : Prop :=
  ∀ arena, good arena → plan.Settled record arena ∨
    ∃ next, plan.Advances record arena next ∧ good next

variable {plan : Plan} {record : Record} {good : Arena → Prop}

theorem Advances.result_eq {arena next : Arena}
    (advances : plan.Advances record arena next)
    (last : plan.work next = 0 →
      next.slots.map (plan.change next) = next.slots) :
    plan.result next = plan.result arena := by
  have busy : plan.work arena ≠ 0 := by
    rw [← advances.work]
    exact Nat.succ_ne_zero _
  have all : next.mapSlots (plan.change next) =
      arena.mapSlots (plan.change arena) := by
    simp only [Arena.mapSlots, Arena.refresh, advances.slots, advances.root]
  unfold result
  rw [if_neg busy, ← all]
  by_cases done : plan.work next = 0
  · rw [if_pos done, Arena.mapSlots, last done]
    exact advances.fresh.symm
  · rw [if_neg done]

theorem Guides.slots_of_done (guides : plan.Guides record good) {arena : Arena}
    (start : good arena) (done : plan.work arena = 0) :
    arena.slots.map (plan.change arena) = arena.slots := by
  rcases guides arena start with settled | ⟨next, advances, _⟩
  · exact settled.slots
  · have work := advances.work
    omega

/-- A record that is guided by a plan carries it out. -/
theorem Guides.reaches (guides : plan.Guides record good) {arena : Arena}
    (start : good arena) :
    Replay.Reaches ⟨[record], arena⟩ (plan.work arena)
      ⟨[], plan.result arena⟩ := by
  induction left : plan.work arena generalizing arena with
  | zero =>
      rcases guides arena start with settled | ⟨next, advances, _⟩
      · rw [result, if_pos left]
        exact .settle settled.stepped (.refl _)
      · have work := advances.work
        omega
  | succ left induction =>
      rcases guides arena start with settled | ⟨next, advances, later⟩
      · have work := settled.work
        omega
      · have work := advances.work
        rw [← advances.result_eq (guides.slots_of_done later)]
        exact .change advances.stepped (induction later (by omega))

theorem Guides.slots_result (guides : plan.Guides record good) {arena : Arena}
    (start : good arena) :
    (plan.result arena).slots = arena.slots.map (plan.change arena) := by
  unfold result
  by_cases done : plan.work arena = 0
  · rw [if_pos done, guides.slots_of_done start done]
  · rw [if_neg done]
    rfl

end Plan

theorem Replay.Reaches.runFrom_single {start final : State} {record : Record}
    {changes : Nat} (reaches : Reaches start changes final)
    (alone : start.pending = [record]) {left : Nat} (excess : left < changes)
    (budget : Int) (index : Nat) :
    runFrom budget index left [record] start.arena =
      .error (exceeded index record budget) := by
  induction reaches generalizing left with
  | refl => exact absurd excess (Nat.not_lt_zero left)
  | change stepped _ induction =>
      cases alone
      cases left with
      | zero => exact runFrom_of_excess stepped
      | succ left =>
          rw [runFrom_of_change stepped]
          exact induction rfl (Nat.lt_of_succ_lt_succ excess)
  | settle _ later _ =>
      cases alone
      cases later
      exact absurd excess (Nat.not_lt_zero left)

theorem Replay.Reaches.replay_single {record : Record} {arena : Arena}
    {final : State} {changes : Nat}
    (reaches : Reaches ⟨[record], arena⟩ changes final) {budget : Int}
    (excess : budget.toNat < changes) :
    ({ records := [record] } : Stack).replay budget arena =
      .error (exceeded 0 record budget) :=
  reaches.runFrom_single rfl excess budget 0

/-- A record that can always make another change makes any number of them. -/
theorem Replay.exists_reaches_of_progress {record : Record}
    {good : Arena → Prop}
    (progress : ∀ arena, good arena →
      ∃ next, record.step arena = .ok (some next) ∧ good next)
    {arena : Arena} (start : good arena) (changes : Nat) :
    ∃ final, Reaches ⟨[record], arena⟩ changes final := by
  induction changes generalizing arena with
  | zero => exact ⟨_, .refl _⟩
  | succ changes induction =>
      obtain ⟨next, stepped, later⟩ := progress arena start
      obtain ⟨final, reaches⟩ := induction later
      exact ⟨final, .change stepped reaches⟩

/-- The replay of a guided record needs the number of changes that is planned:
it gives the end of the plan with such a budget, and fails because of the limit
with any smaller one. -/
theorem Plan.Guides.replay_eq {plan : Plan} {record : Record}
    {good : Arena → Prop} (guides : plan.Guides record good) {arena : Arena}
    (start : good arena) {budget : Int} (allowed : 0 ≤ budget) :
    ({ records := [record] } : Stack).replay budget arena =
      if (plan.work arena : Int) ≤ budget then .ok (plan.result arena)
      else .error (Replay.exceeded 0 record budget) := by
  have reaches := guides.reaches start
  obtain ⟨limit, rfl⟩ := Int.eq_ofNat_of_zero_le allowed
  split
  next enough =>
    exact Stack.replay_eq_ok_iff.mpr
      ⟨plan.work arena, Int.ofNat_le.mp enough, reaches⟩
  next short =>
    apply reaches.replay_single
    rw [Int.toNat_natCast]
    omega

/-! ## Trying the nodes -/

namespace Record

variable {record : Record} {arena : Arena}

/-- A record leaves a node alone, which is then idle, or it makes one of the
edits that are due there. -/
def Tries (record : Record) (arena : Arena) (idle : Node → Prop)
    (due : Node → Arena → Prop) (node : Node) : Prop :=
  record.tryAt arena node = .ok (.unchanged arena) ∧ idle node ∨
    ∃ edited, record.tryAt arena node = .ok (.edited edited) ∧ due node edited

theorem firstChange_cases {idle : Node → Prop} {due : Node → Arena → Prop}
    {nodes : List Node}
    (tries : ∀ node ∈ nodes, record.Tries arena idle due node) :
    (record.firstChange arena nodes = .ok none ∧ ∀ node ∈ nodes, idle node) ∨
      ∃ node ∈ nodes, ∃ edited, due node edited ∧
        record.firstChange arena nodes = .ok (some edited.refresh) ∧
        record.tryAt arena node = .ok (.edited edited) := by
  induction nodes with
  | nil => exact .inl ⟨rfl, by simp⟩
  | cons node nodes induction =>
      obtain ⟨first, others⟩ := List.forall_mem_cons.mp tries
      rcases first with ⟨tried, quiet⟩ | ⟨edited, tried, made⟩
      · have skipped : record.firstChange arena (node :: nodes) =
            record.firstChange arena nodes := by
          rw [firstChange, tried]
          rfl
        rw [skipped]
        rcases induction others with
          ⟨settled, rest⟩ | ⟨later, member, found⟩
        · exact .inl ⟨settled, List.forall_mem_cons.mpr ⟨quiet, rest⟩⟩
        · exact .inr ⟨later, List.mem_cons_of_mem node member, found⟩
      · refine .inr ⟨node, List.mem_cons_self, edited, made, ?_, tried⟩
        rw [firstChange, tried]
        rfl

end Record

end FormulaEdit
