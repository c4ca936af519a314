import FormulaEdit.Proofs.Rule.Running
import FormulaEdit.Session

/-!
# Recorded edits

An edit is recorded with a condition that is made after the rule has run, from
the arena before it.  In a checked arena this condition can always be made, it
admits the edited node, and a replay of the record alone begins with a change.
-/

namespace FormulaEdit

namespace Condition

variable {arena : Arena} {node : Node} {id : Int}

theorem sameTokenAndDepth_holds (linked : arena.Linked)
    (live : arena.live? id = some node) :
    ∃ condition, sameTokenAndDepth arena node = .ok condition ∧
      condition.holds arena node = .ok true := by
  obtain ⟨links, bounded, climbs⟩ := linked.climbs id node live
  have deep := Arena.depth_eq_ok_iff.mpr ⟨bounded, climbs⟩
  refine ⟨.both (.tokenIs node.token) (.depthIs links), ?_, ?_⟩
  · rw [sameTokenAndDepth, deep]
    rfl
  · simp [holds, deep, bind, Except.bind, pure, Except.pure]

theorem sameDepthAndFlag_holds (linked : arena.Linked)
    (live : arena.live? id = some node) (flag : Flag) :
    ∃ condition, sameDepthAndFlag flag arena node = .ok condition ∧
      condition.holds arena node = .ok true := by
  obtain ⟨links, bounded, climbs⟩ := linked.climbs id node live
  have deep := Arena.depth_eq_ok_iff.mpr ⟨bounded, climbs⟩
  refine ⟨.both (.depthIs links) (.flagIs flag (flag.get node)), ?_, ?_⟩
  · rw [sameDepthAndFlag, deep]
    rfl
  · simp [holds, deep, bind, Except.bind, pure, Except.pure]

/-- An edit in a checked arena can be generalised, and the condition admits
the node that it was made for. -/
theorem generalize_holds (linked : arena.Linked)
    (live : arena.live? id = some node) (action : Action) :
    ∃ condition, generalize action arena node = .ok condition ∧
      condition.holds arena node = .ok true := by
  cases action with
  | squashNegation => exact ⟨.always, rfl, rfl⟩
  | replace => exact ⟨.always, rfl, rfl⟩
  | move =>
      refine ⟨.tokenIs node.token, rfl, ?_⟩
      rw [holds, beq_self_eq_true]
  | flipComparison => exact sameTokenAndDepth_holds linked live
  | toImplication => exact sameTokenAndDepth_holds linked live
  | toggleBreak => exact sameDepthAndFlag_holds linked live .breaksLine
  | toggleBracket => exact sameDepthAndFlag_holds linked live .bracketed

end Condition

/-- Where its condition holds, a rule does what it does without one. -/
theorem Action.run_of_holds {arena : Arena} {focus : Int} {node : Node}
    {condition : Condition} (live : arena.live? focus = some node)
    (holds : condition.holds arena node = .ok true) (action : Action)
    (params : Json.Members) :
    action.run arena focus params condition =
      action.run arena focus params .always := by
  have same : ∀ edit : Node → Result Outcome,
      Rule.guarded arena focus condition edit =
        Rule.guarded arena focus .always edit := by
    intro edit
    rw [Rule.guarded_always live, Rule.guarded_of_decided live holds,
      if_pos rfl]
  cases action with
  | squashNegation =>
      show Rule.squashNegation arena focus _ = Rule.squashNegation arena focus _
      simp only [Rule.squashNegation, same]
  | move =>
      show Rule.move arena focus _ params = Rule.move arena focus _ params
      simp only [Rule.move, same]
  | replace =>
      show Rule.replace arena focus _ params = Rule.replace arena focus _ params
      simp only [Rule.replace, same]
  | flipComparison => exact same _
  | toImplication => exact same _
  | toggleBreak => exact same _
  | toggleBracket => exact same _

theorem Record.replay_of_step {record : Record} {arena next : Arena}
    (stepped : record.step arena = .ok (some next)) (budget : Nat) :
    (∃ failure, (Stack.mk [record]).replay budget arena = .error failure) ∨
      ∃ changes result, 0 < changes ∧ changes ≤ budget ∧
        (Stack.mk [record]).replay budget arena = .ok result ∧
        Replay.Reaches ⟨[record], arena⟩ changes ⟨[], result⟩ := by
  cases replayed : (Stack.mk [record]).replay budget arena with
  | error failure => exact .inl ⟨failure, rfl⟩
  | ok result =>
      obtain ⟨changes, enough, reaches⟩ := Stack.replay_eq_ok_iff.mp replayed
      refine .inr ⟨changes, result, ?_, enough, rfl, reaches⟩
      cases reaches with
      | change _ _ => exact Nat.succ_pos _
      | settle settled _ =>
          rw [stepped] at settled
          cases settled

/-- What makes a record worth a replay: its condition admits the edited node,
under the condition the rule makes the edit again, and a replay begins with a
change. -/
structure Record.Repeats (record : Record) (arena : Arena) (focus : Node)
    (outcome : Outcome) : Prop where
  admits : record.condition.holds arena focus = .ok true
  same : record.action.run arena focus.id record.params record.condition =
    .ok outcome
  first : ∃ next, record.step arena = .ok (some next)
  replays : ∀ budget : Nat,
    (∃ failure, (Stack.mk [record]).replay budget arena = .error failure) ∨
      ∃ changes result, 0 < changes ∧ changes ≤ budget ∧
        (Stack.mk [record]).replay budget arena = .ok result ∧
        Replay.Reaches ⟨[record], arena⟩ changes ⟨[], result⟩

section

variable {arena : Arena} {tree : Tree} {focus : Node} {outcome : Outcome}

theorem Record.exists_step {record : Record}
    (tries : ∀ node ∈ arena.liveNodes, ∃ outcome,
      record.tryAt arena node = .ok outcome)
    (member : focus ∈ arena.liveNodes)
    (ran : record.action.run arena focus.id record.params record.condition =
      .ok outcome) (changed : outcome.changed = true) :
    ∃ next, record.step arena = .ok (some next) := by
  obtain ⟨found, stepped⟩ := exists_firstChange tries
  cases found with
  | some next => exact ⟨next, stepped⟩
  | none =>
      rcases firstChange_eq_none stepped focus member with
        ⟨other, otherRan, idle⟩ | ⟨_, _, refused⟩
      · rw [ran] at otherRan
        cases otherRan
        rw [changed] at idle
        cases idle
      · rw [ran] at refused
        cases refused

theorem Record.repeats_of_holds {record : Record}
    (presents : arena.Presents tree) (member : focus ∈ arena.liveNodes)
    (ran : record.action.run arena focus.id record.params .always =
      .ok outcome) (changed : outcome.changed = true)
    (admits : record.condition.holds arena focus = .ok true) :
    record.Repeats arena focus outcome := by
  have live := presents.live_of_mem member
  have same := (Action.run_of_holds live admits record.action
    record.params).trans ran
  have tries : ∀ node ∈ arena.liveNodes, ∃ outcome,
      record.tryAt arena node = .ok outcome := by
    intro node nodeMember
    rcases Action.runs_everywhere presents live ran
        (presents.live_of_mem nodeMember) record.condition with
      ⟨other, otherRan⟩ | ⟨place, refused⟩
    · exact ⟨other, tryAt_of_ok otherRan⟩
    · exact ⟨.unchanged arena, tryAt_of_reorder refused⟩
  obtain ⟨next, stepped⟩ := exists_step tries member same changed
  exact ⟨admits, same, ⟨next, stepped⟩, replay_of_step stepped⟩

end

theorem Action.ofJson_name (action : Action) :
    ofJson (.str action.name) = .ok action := by
  rw [ofJson, ofJson?, ofName?_name]
  rfl

namespace Edit

variable {name : Json} {arena : Arena} {focus : Node} {params : Json.Members}

theorem apply_eq_ok {edit : Edit}
    (applied : apply name arena focus params = .ok edit) :
    ∃ action, Action.ofJson name = .ok action ∧
      action.run arena focus.id params .always = .ok edit.outcome ∧
      (edit.outcome.changed = false ∧ edit.record = none ∨
        edit.outcome.changed = true ∧ ∃ condition,
          Condition.generalize action arena focus = .ok condition ∧
          edit.record = some ⟨action, params, condition⟩) := by
  obtain ⟨action, named, applied⟩ := Result.bind_eq_ok_iff.mp applied
  obtain ⟨outcome, ran, applied⟩ := Result.bind_eq_ok_iff.mp applied
  cases changed : outcome.changed with
  | false =>
      rw [changed, if_neg Bool.false_ne_true] at applied
      cases applied
      exact ⟨action, named, ran, .inl ⟨changed, rfl⟩⟩
  | true =>
      rw [changed, if_pos rfl] at applied
      obtain ⟨condition, general, made⟩ := Result.bind_eq_ok_iff.mp applied
      cases made
      exact ⟨action, named, ran, .inr ⟨changed, condition, general, rfl⟩⟩

theorem exists_apply (linked : arena.Linked) {id : Int}
    (live : arena.live? id = some focus) {action : Action}
    (named : Action.ofJson name = .ok action) {outcome : Outcome}
    (ran : action.run arena focus.id params .always = .ok outcome) :
    ∃ edit, apply name arena focus params = .ok edit := by
  obtain ⟨condition, general, _⟩ :=
    Condition.generalize_holds linked live action
  simp only [apply, named, ran, general, bind, Except.bind]
  split
  · exact ⟨_, rfl⟩
  · exact ⟨_, rfl⟩

end Edit

/-- In a checked arena every rule that runs gives an edit.  It has no record if
nothing changed; otherwise it has one of the same rule and parameters, under a
condition that admits the edit and lets a replay repeat it. -/
theorem recorded_edits_repeat {arena : Arena} {focus : Node}
    (valid : arena.validate = .ok ()) (live : focus ∈ arena.liveNodes)
    (action : Action) (params : Json.Members) :
    (∀ outcome, action.run arena focus.id params .always = .ok outcome →
      ∃ edit, Edit.apply (.str action.name) arena focus params = .ok edit) ∧
    ∀ edit, Edit.apply (.str action.name) arena focus params = .ok edit →
      action.run arena focus.id params .always = .ok edit.outcome ∧
      (edit.outcome.changed = false → edit.record = none) ∧
      (edit.outcome.changed = true → ∃ record, edit.record = some record ∧
        record.action = action ∧ record.params = params ∧
        record.Repeats arena focus edit.outcome) := by
  obtain ⟨tree, presents⟩ := Arena.validate_eq_ok_iff.mp valid
  have focusLive := presents.live_of_mem live
  refine ⟨?_, ?_⟩
  · intro outcome ran
    exact Edit.exists_apply presents.linked focusLive action.ofJson_name ran
  intro edit applied
  obtain ⟨rule, named, ran, recorded⟩ := Edit.apply_eq_ok applied
  rw [action.ofJson_name] at named
  cases named
  refine ⟨ran, ?_⟩
  rcases recorded with ⟨idle, none⟩ | ⟨changed, condition, general, recorded⟩
  · rw [idle]
    exact ⟨fun _ => none, fun changed => nomatch changed⟩
  · obtain ⟨found, again, admits⟩ :=
      Condition.generalize_holds presents.linked focusLive action
    rw [general] at again
    cases again
    refine ⟨fun idle => absurd (changed.symm.trans idle) (by decide), ?_⟩
    intro _
    exact ⟨_, recorded, rfl, rfl,
      Record.repeats_of_holds presents live ran changed admits⟩

/-- Making `q` a premise in `(or p (or q r))` is recorded for any `q` two links
below the root.  The edit takes `q` further down, so one change is enough for a
replay. -/
theorem recorded_edits_repeat_premise :
    ∃ start focus edit record result,
      Arena.ofText "(or p (or q r))" = .ok start ∧
      start.validate = .ok () ∧ focus ∈ start.liveNodes ∧
      Edit.apply (.str "toImp") start focus [] = .ok edit ∧
      edit.outcome.changed = true ∧ edit.record = some record ∧
      record.condition = .both (.tokenIs "q") (.depthIs 2) ∧
      record.Repeats start focus edit.outcome ∧
      (Stack.mk [record]).replay 1 start = .ok result ∧
      result.liveNodes.map Node.token =
        ["or", "p", "=>", "q", "r", "not", "or"] := by
  let focus : Node :=
    { id := 3, token := "q", parent := 2, span := ⟨⟨0, 10⟩, ⟨0, 10⟩⟩ }
  let condition : Condition := .both (.tokenIs "q") (.depthIs 2)
  have shown : (do
      let start ← Arena.ofText "(or p (or q r))"
      start.validate
      let edit ← Edit.apply (.str "toImp") start focus []
      let result ← (Stack.mk edit.record.toList).replay 1 start
      return (decide (focus ∈ start.liveNodes), edit.outcome.changed,
        edit.record.map Record.condition,
        result.liveNodes.map Node.token)).toOption =
      some (true, true, some condition,
        ["or", "p", "=>", "q", "r", "not", "or"]) := by
    decide +kernel
  obtain ⟨start, read, rest⟩ :=
    Result.bind_eq_ok_iff.mp (Result.toOption_eq_some_iff.mp shown)
  obtain ⟨_, valid, rest⟩ := Result.bind_eq_ok_iff.mp rest
  obtain ⟨edit, applied, rest⟩ := Result.bind_eq_ok_iff.mp rest
  obtain ⟨result, replayed, rest⟩ := Result.bind_eq_ok_iff.mp rest
  simp only [pure, Except.pure, Except.ok.injEq, Prod.mk.injEq,
    decide_eq_true_eq] at rest
  obtain ⟨live, changed, general, tokens⟩ := rest
  obtain ⟨record, recorded, _, _, repeats⟩ :=
    ((recorded_edits_repeat valid live .toImplication []).2 edit applied).2.2
      changed
  rw [recorded] at general replayed
  exact ⟨start, focus, edit, record, result, read, valid, live, applied,
    changed, recorded, Option.some.inj general, repeats, replayed, tokens⟩

end FormulaEdit
