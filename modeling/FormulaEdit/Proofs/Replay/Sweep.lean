import FormulaEdit.Proofs.Replay.Plan
import FormulaEdit.Proofs.Rule.Preservation
import FormulaEdit.Render

/-!
# Records that sweep over an arena

The condition recorded with a toggle asks for the old value of the flag, and
the one recorded with a flip for the old token.  So a change takes its node out
of the nodes that the condition admits.  No other node is taken out or let in,
since neither the depth of a node nor anything else that a condition looks at
depends on the flags and operands of other nodes.  The replay of such a record
changes every admitted node once.
-/

namespace FormulaEdit

namespace Arena

/-- Slots may have changed, but not their ids and their links upwards. -/
structure SameAbove (arena edited : Arena) : Prop where
  size : edited.size = arena.size
  slots : ∀ id, Option.Rel
    (fun before after => after.id = before.id ∧ after.parent = before.parent)
    (arena.node? id) (edited.node? id)

theorem sameAbove_update (arena : Arena) (id : Int) {change : Node → Node}
    (keepsId : ∀ node, (change node).id = node.id)
    (keepsParent : ∀ node, (change node).parent = node.parent) :
    arena.SameAbove (arena.update id change).refresh where
  size := by rw [size_refresh, size_update]
  slots := by
    intro other
    rw [node?_refresh, node?_update]
    cases arena.node? other with
    | none =>
        rw [Option.map_none, ite_self]
        exact .none
    | some node =>
        split
        · exact .some ⟨keepsId node, keepsParent node⟩
        · exact .some ⟨rfl, rfl⟩

namespace SameAbove

variable {arena edited : Arena} (same : arena.SameAbove edited)
include same

theorem climb_eq (start : Int) (fuel depth : Nat) {before after : Node}
    (id : after.id = before.id) (parent : after.parent = before.parent) :
    edited.climb start fuel depth after =
      arena.climb start fuel depth before := by
  induction fuel generalizing depth before after with
  | zero => rw [climb, climb, parent]
  | succ fuel induction =>
      rw [climb, climb, parent, id]
      have above := same.slots before.parent
      unfold Arena.node
      rw [same.size]
      cases found : arena.node? before.parent with
      | none =>
          cases foundAfter : edited.node? before.parent with
          | none => rfl
          | some =>
              rw [found, foundAfter] at above
              cases above
      | some node =>
          cases foundAfter : edited.node? before.parent with
          | none =>
              rw [found, foundAfter] at above
              cases above
          | some other =>
              rw [found, foundAfter] at above
              obtain ⟨sameId, sameParent⟩ := Option.rel_some_some.mp above
              have alive : other.isLive = node.isLive := by
                rw [Node.isLive, Node.isLive, sameId]
              simp only [bind, Except.bind, alive,
                induction (depth + 1) sameId sameParent]

theorem depth_eq {before after : Node} (id : after.id = before.id)
    (parent : after.parent = before.parent) :
    edited.depth after = arena.depth before := by
  rw [depth, depth, same.size, id]
  exact same.climb_eq _ _ _ id parent

/-- A condition looks at the node, its id and what lies above it only. -/
theorem holds_eq (condition : Condition) (node : Node) :
    condition.holds edited node = condition.holds arena node := by
  induction condition with
  | always => rfl
  | tokenIs token => rfl
  | depthIs depth => rw [Condition.holds, Condition.holds, same.depth_eq rfl rfl]
  | flagIs flag value => rfl
  | both first second firstInduction secondInduction =>
      rw [Condition.holds, Condition.holds, firstInduction, secondInduction]

end SameAbove

theorem Linked.exists_decision {arena : Arena} (linked : arena.Linked)
    (condition : Condition) {id : Int} {node : Node}
    (live : arena.live? id = some node) :
    ∃ value, condition.holds arena node = .ok value := by
  induction condition with
  | always => exact ⟨true, rfl⟩
  | tokenIs token => exact ⟨_, rfl⟩
  | depthIs depth =>
      obtain ⟨links, bounded, climbs⟩ := linked.climbs id node live
      have deep := depth_eq_ok_iff.mpr ⟨bounded, climbs⟩
      exact ⟨_, by rw [Condition.holds, deep]; rfl⟩
  | flagIs flag value => exact ⟨_, rfl⟩
  | both first second firstInduction secondInduction =>
      obtain ⟨value, decided⟩ := firstInduction
      cases value with
      | false => exact ⟨false, by rw [Condition.holds, decided]; rfl⟩
      | true =>
          obtain ⟨other, otherDecided⟩ := secondInduction
          exact ⟨other, by rw [Condition.holds, decided]; exact otherDecided⟩

end Arena

theorem Condition.holds_both {arena : Arena} {node : Node}
    {first second : Condition}
    (holds : (both first second).holds arena node = .ok true) :
    first.holds arena node = .ok true ∧ second.holds arena node = .ok true := by
  obtain ⟨value, decided, rest⟩ := Result.bind_eq_ok_iff.mp holds
  cases value with
  | false => cases rest
  | true => exact ⟨decided, rest⟩

/-! ## The nodes that a record is meant for -/

theorem Flag.toggle_ne_flip (flag : Flag) :
    flag.toggle ≠ .flipComparison := by
  cases flag <;> decide

namespace Record

/-- The toggles and flips with a condition of the kind that is recorded with
them, except for flips of equations. -/
inductive Sweeping : Record → Prop where
  | toggle (params : Json.Members) (flag : Flag) (depth : Int)
      (value : Bool) :
      Sweeping
        { action := flag.toggle, params
          condition := .both (.depthIs depth) (.flagIs flag value) }
  | flip (params : Json.Members) {token : String} (depth : Int)
      (ordering : token ∈ ["<", ">", "<=", ">="]) :
      Sweeping
        { action := .flipComparison, params
          condition := .both (.tokenIs token) (.depthIs depth) }

/-- Whether a record is meant for a node: its condition holds there, and a
flip finds two operands. -/
def selects (record : Record) (arena : Arena) (node : Node) : Bool :=
  (record.condition.holds arena node).toOption == some true &&
    (record.action != .flipComparison || node.children.length == 2)

/-- The live nodes that a record is meant for. -/
def targets (record : Record) (arena : Arena) : List Node :=
  arena.liveNodes.filter (record.selects arena)

/-- Each target is changed once. -/
def sweep (record : Record) : Plan where
  work := fun arena => (record.targets arena).length
  change := fun arena node =>
    if node.isLive && record.selects arena node then
      record.action.touched node
    else node

variable {record : Record} {arena edited : Arena} {node : Node}

theorem selects_iff : record.selects arena node = true ↔
    record.condition.holds arena node = .ok true ∧
      (record.action = .flipComparison → node.children.length = 2) := by
  rw [selects, Bool.and_eq_true, beq_iff_eq, Result.toOption_eq_some_iff,
    Bool.or_eq_true, bne_iff_ne, beq_iff_eq, imp_iff_not_or]

theorem selects_eq (record : Record) (same : arena.SameAbove edited) :
    record.selects edited = record.selects arena := by
  funext node
  rw [selects, selects, same.holds_eq]

theorem flipped_ne {token flipped : String}
    (ordering : token ∈ ["<", ">", "<=", ">="])
    (flips : Rule.flippedComparison? token = some flipped) :
    flipped ≠ token := by
  have table := Rule.flippedComparison?_eq_some_iff.mp flips
  grind

theorem exists_flipped {token : String}
    (ordering : token ∈ ["<", ">", "<=", ">="]) :
    ∃ flipped, Rule.flippedComparison? token = some flipped := by
  simp only [List.mem_cons, List.not_mem_nil, or_false] at ordering
  rcases ordering with rfl | rfl | rfl | rfl <;> exact ⟨_, rfl⟩

theorem flip_eq {token flipped : String}
    (live : arena.live? node.id = some node) (named : node.token = token)
    (flips : Rule.flippedComparison? token = some flipped) :
    (match some flipped, node.children with
      | some token, [first, second] =>
          .ok (.edited (arena.update node.id fun node =>
            { node with token := token, children := [second, first] }))
      | _, _ => .ok (.unchanged arena) : Result Outcome) =
      .ok (if node.children.length == 2 then
        .edited (arena.update node.id Action.flipComparison.touched)
      else .unchanged arena) := by
  split
  next first second same binary =>
    cases same
    rw [binary]
    show _ = Except.ok (Outcome.edited _)
    congr 2
    apply Arena.update_congr live
    rw [Action.touched, named, flips, binary]
    rfl
  next other =>
    have notBinary : node.children.length ≠ 2 := by
      intro two
      obtain ⟨first, second, binary⟩ := List.length_eq_two.mp two
      exact other flipped first second rfl binary
    rw [if_neg (by simpa using notBinary)]

namespace Sweeping

variable (sweeping : record.Sweeping)
include sweeping

/-- A changed node is no target any more, wherever it stands. -/
theorem selects_touched (selected : record.selects arena node = true) :
    record.selects edited (record.action.touched node) = false := by
  rw [Bool.eq_false_iff]
  intro again
  have before := (selects_iff.mp selected).1
  have after := (selects_iff.mp again).1
  cases sweeping with
  | toggle params flag depth value =>
      have old := (Condition.holds_both before).2
      have new := (Condition.holds_both after).2
      simp only [Condition.holds, Flag.get_touched, Except.ok.injEq,
        beq_iff_eq] at old new
      rw [old] at new
      exact absurd new (by simp)
  | @flip params token depth ordering =>
      have old := (Condition.holds_both before).1
      have new := (Condition.holds_both after).1
      obtain ⟨flipped, flips⟩ := exists_flipped ordering
      simp only [Condition.holds, Action.touched, Except.ok.injEq,
        beq_iff_eq] at old new
      rw [old, flips, Option.getD_some] at new
      exact flipped_ne ordering flips new

theorem run_eq (linked : arena.Linked)
    (live : arena.live? node.id = some node) :
    record.action.run arena node.id record.params record.condition =
      .ok (if record.selects arena node then
        .edited (arena.update node.id record.action.touched)
      else .unchanged arena) := by
  obtain ⟨value, decided⟩ := linked.exists_decision record.condition live
  have selected : record.selects arena node = (value &&
      (record.action != .flipComparison || node.children.length == 2)) := by
    rw [selects, decided]
    cases value <;> rfl
  rw [selected]
  cases sweeping with
  | toggle params flag depth wanted =>
      have always : (flag.toggle != .flipComparison) = true :=
        bne_iff_ne.mpr flag.toggle_ne_flip
      rw [flag.run_toggle, Rule.guarded_of_decided live decided, always,
        Bool.true_or, Bool.and_true]
      cases value <;> rfl
  | @flip params token depth ordering =>
      have ran : Rule.flipComparison arena node.id _ = _ :=
        Rule.guarded_of_decided live decided
      cases value with
      | false => exact ran
      | true =>
          have named := (Condition.holds_both decided).1
          rw [Condition.holds, Except.ok.injEq, beq_iff_eq] at named
          obtain ⟨flipped, flips⟩ := exists_flipped ordering
          rw [if_pos rfl, named, flips] at ran
          exact ran.trans (flip_eq live named flips)

theorem not_squash : record.action ≠ .squashNegation := by
  cases sweeping with
  | toggle params flag depth value => cases flag <;> simp [Flag.toggle]
  | flip params depth ordering => simp

theorem targets_split {before after : List Node}
    (live : arena.live? node.id = some node)
    (selected : record.selects arena node = true)
    (slots : arena.slots.toList = before ++ node :: after)
    (changed : (arena.update node.id record.action.touched).slots.toList =
      before ++ record.action.touched node :: after) :
    (record.targets
        (arena.update node.id record.action.touched).refresh).length + 1 =
      (record.targets arena).length := by
  have same := arena.sameAbove_update node.id record.action.id_touched
    record.action.parent_touched
  have alive := (Arena.live?_eq_some_iff.mp live).2
  have stillAlive : (record.action.touched node).isLive = true := by
    rw [Node.isLive, record.action.id_touched]
    exact alive
  have spent : record.selects arena (record.action.touched node) = false :=
    sweeping.selects_touched selected
  simp only [targets, Arena.liveNodes, Arena.slots_refresh, slots, changed,
    record.selects_eq same, List.filter_append, List.length_append,
    List.filter_cons, alive, stillAlive, selected, spent, if_true,
    Bool.false_eq_true, if_false, List.length_cons]
  omega

theorem change_split {before after : List Node}
    (live : arena.live? node.id = some node)
    (selected : record.selects arena node = true)
    (slots : arena.slots.toList = before ++ node :: after)
    (changed : (arena.update node.id record.action.touched).slots.toList =
      before ++ record.action.touched node :: after) :
    let next := (arena.update node.id record.action.touched).refresh
    next.slots.map (record.sweep.change next) =
      arena.slots.map (record.sweep.change arena) := by
  intro next
  have same : arena.SameAbove next := arena.sameAbove_update node.id
    record.action.id_touched record.action.parent_touched
  have alive := (Arena.live?_eq_some_iff.mp live).2
  have planned : record.sweep.change next = record.sweep.change arena := by
    simp only [sweep, record.selects_eq same]
  have here : record.sweep.change arena node = record.action.touched node := by
    simp only [sweep, alive, selected, Bool.and_true, if_true]
  have done : record.sweep.change arena (record.action.touched node) =
      record.action.touched node := by
    simp only [sweep, sweeping.selects_touched selected, Bool.and_false,
      Bool.false_eq_true, if_false]
  apply Array.ext'
  rw [Array.toList_map, Array.toList_map, planned, Arena.slots_refresh, slots,
    changed]
  simp only [List.map_append, List.map_cons, here, done]

/-- A sweeping record changes one target after the other. -/
theorem guides :
    record.sweep.Guides record fun arena => arena.validate = .ok () := by
  intro arena valid
  have linked := Arena.validate_eq_ok_iff_linked.mp valid
  have tries : ∀ node ∈ arena.liveNodes, record.Tries arena
      (fun node => record.selects arena node = false)
      (fun node edited => record.selects arena node = true ∧
        edited = arena.update node.id record.action.touched) node := by
    intro node member
    have tried := tryAt_of_ok
      (sweeping.run_eq linked (linked.live_of_mem member))
    cases selected : record.selects arena node with
    | false =>
        rw [selected] at tried
        exact .inl ⟨tried, selected⟩
    | true =>
        rw [selected] at tried
        exact .inr ⟨_, tried, selected, rfl⟩
  rcases firstChange_cases tries with
    ⟨stepped, idle⟩ | ⟨node, member, _, ⟨selected, rfl⟩, stepped, tried⟩
  · refine .inl ⟨stepped, ?_, ?_⟩
    · show (record.targets arena).length = 0
      rw [List.length_eq_zero_iff, targets, List.filter_eq_nil_iff]
      intro node member
      rw [idle node member]
      exact Bool.false_ne_true
    · apply Arena.map_slots_eq_self
      intro node member
      simp only [sweep]
      split
      next target =>
        rw [Bool.and_eq_true] at target
        have live : node ∈ arena.liveNodes :=
          List.mem_filter.mpr ⟨member, target.1⟩
        rw [idle node live] at target
        cases target.2
      next => rfl
  · have live := linked.live_of_mem member
    obtain ⟨before, after, slots, changed⟩ := Arena.exists_slots_split live
    refine .inr
      ⟨(arena.update node.id record.action.touched).refresh, ?_, ?_⟩
    · exact
        { stepped := stepped
          work := sweeping.targets_split live selected slots (changed _)
          fresh := rfl
          root := arena.root_update _ _
          slots := sweeping.change_split live selected slots (changed _) }
    · have ran := tryAt_changed tried rfl
      have still := Action.validate_run valid member ran fun lossy =>
        sweeping.not_squash lossy.1
      exact still

end Sweeping

end Record

/-- In a checked arena the replay of a toggle or a flip, under a condition of
the kind that is recorded with it, changes each node once that the record is
meant for, and no other one.  It ends as if all these nodes had been changed at
once, if the budget allows as many changes, and otherwise because of the
limit. -/
theorem toggles_and_flips_sweep {record : Record} {arena : Arena}
    (valid : arena.validate = .ok ()) (sweeping : record.Sweeping) :
    Replay.Reaches ⟨[record], arena⟩ (record.targets arena).length
        ⟨[], record.sweep.result arena⟩ ∧
      ∀ budget : Int, 0 ≤ budget →
        ({ records := [record] } : Stack).replay budget arena =
          if ((record.targets arena).length : Int) ≤ budget then
            .ok (record.sweep.result arena)
          else .error (Replay.exceeded 0 record budget) := by
  refine ⟨sweeping.guides.reaches valid, ?_⟩
  intro budget allowed
  exact sweeping.guides.replay_eq valid allowed

/-- Of four comparisons `<`, one lies deeper and one has three operands.  The
other two are flipped, which takes two changes. -/
theorem toggles_and_flips_sweep_less :
    ∃ (record : Record) (start : Arena),
      record.Sweeping ∧ record.action = .flipComparison ∧
      Arena.ofText "(and (< x (< p q)) (< a b c) (< z w))" = .ok start ∧
      start.validate = .ok () ∧
      (record.targets start).map Node.id = [1, 10] ∧
      ({ records := [record] } : Stack).replay 2 start =
        .ok (record.sweep.result start) ∧
      (record.sweep.result start).render {} =
        .ok "(and (>= (< p q) x) (< a b c) (>= w z))" ∧
      ({ records := [record] } : Stack).replay 1 start =
        .error (Replay.exceeded 0 record 1) := by
  let record : Record :=
    { action := .flipComparison
      condition := .both (.tokenIs "<") (.depthIs 1) }
  have sweeping : record.Sweeping := .flip [] 1 (by decide)
  have shown : (do
      let start ← Arena.ofText "(and (< x (< p q)) (< a b c) (< z w))"
      let _ ← start.validate
      let text ← (record.sweep.result start).render {}
      return ((record.targets start).map Node.id, text)).toOption =
      some ([1, 10], "(and (>= (< p q) x) (< a b c) (>= w z))") := by
    decide +kernel
  obtain ⟨start, read, rest⟩ :=
    Result.bind_eq_ok_iff.mp (Result.toOption_eq_some_iff.mp shown)
  obtain ⟨_, valid, rest⟩ := Result.bind_eq_ok_iff.mp rest
  obtain ⟨text, rendered, last⟩ := Result.bind_eq_ok_iff.mp rest
  obtain ⟨ids, rfl⟩ : (record.targets start).map Node.id = [1, 10] ∧
      text = "(and (>= (< p q) x) (< a b c) (>= w z))" := by
    simpa using Except.ok.inj last
  have two : (record.targets start).length = 2 := by
    rw [← List.length_map Node.id, ids]
    rfl
  obtain ⟨_, replayed⟩ := toggles_and_flips_sweep valid sweeping
  rw [two] at replayed
  have enough := replayed 2 (by decide)
  have short := replayed 1 (by decide)
  rw [if_pos (by decide)] at enough
  rw [if_neg (by decide)] at short
  exact ⟨record, start, sweeping, rfl, read, valid, ids, enough, rendered,
    short⟩

end FormulaEdit
