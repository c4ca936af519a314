import FormulaEdit.Proofs.Arena.Rendering
import FormulaEdit.Proofs.Rule.Cursor
import FormulaEdit.Proofs.Session.Records

/-!
# Edits of a session

The record of an edit is kept before the new text is rendered.  Rendering does
not fail after any rule, also where a squashed negation leaves live slots
behind that hang nowhere.  So an edit is made and recorded as a whole, or the
session stays as it is.
-/

namespace FormulaEdit.Session

variable {text : String} {cursor : Position} {action : Json}
  {params : Json.Members}

/-- The rule that a value names changes the formula of a text at a cursor. -/
structure Changes (text : String) (cursor : Position) (action : Json)
    (params : Json.Members) (rule : Action) (arena : Arena) (node : Node)
    (outcome : Outcome) : Prop where
  read : Arena.ofText text = .ok arena
  found : arena.findAt cursor = .ok (some node)
  named : Action.ofJson action = .ok rule
  ran : rule.run arena node.id params .always = .ok outcome
  changed : outcome.changed = true

/-- What is proposed: nothing to record, with the text as it is, or a change
with its record. -/
theorem propose_cases {proposal : Proposal}
    (proposed : propose text cursor action params = .ok proposal) :
    (∃ result, proposal = .idle result ∧ result.text = text ∧
        (result.status = .noFocus ∨ result.status = .unchanged)) ∨
      ∃ rule arena node outcome condition,
        Changes text cursor action params rule arena node outcome ∧
        Condition.generalize rule arena node = .ok condition ∧
        proposal = .edit outcome.arena node.id ⟨rule, params, condition⟩ := by
  obtain ⟨arena, read, rest⟩ := Result.bind_eq_ok_iff.mp proposed
  obtain ⟨found, focused, rest⟩ := Result.bind_eq_ok_iff.mp rest
  cases found with
  | none =>
      cases rest
      exact .inl ⟨_, rfl, rfl, .inl rfl⟩
  | some node =>
      obtain ⟨edit, applied, rest⟩ := Result.bind_eq_ok_iff.mp rest
      obtain ⟨rule, named, ran, recorded⟩ := Edit.apply_eq_ok applied
      rcases recorded with
        ⟨_, unrecorded⟩ | ⟨changed, condition, general, recorded⟩
      · rw [unrecorded] at rest
        cases rest
        exact .inl ⟨_, rfl, rfl, .inr rfl⟩
      · rw [recorded] at rest
        cases rest
        exact .inr ⟨rule, arena, node, edit.outcome, condition,
          ⟨read, focused, named, ran, changed⟩, general, rfl⟩

namespace Changes

variable {rule : Action} {arena : Arena} {node : Node} {outcome : Outcome}
  (changes : Changes text cursor action params rule arena node outcome)

include changes

theorem mem_liveNodes : node ∈ arena.liveNodes := by
  rcases (Arena.nested_ofText changes.read).findAt_cases cursor with
    ⟨nothing, _⟩ | ⟨found, member, focused, _⟩
  · rw [changes.found] at nothing
    cases nothing
  · rw [changes.found] at focused
    cases focused
    exact member

/-- What is left of the formula below the root is still a tree, whatever hangs
nowhere, so it can be rendered. -/
theorem exists_render (layout : Layout) :
    ∃ rendered, outcome.arena.render layout = .ok rendered := by
  obtain ⟨tree, presents⟩ :=
    Arena.validate_eq_ok_iff.mp (Arena.validate_ofText changes.read)
  have live := presents.live_of_mem changes.mem_liveNodes
  rcases Action.run_cases presents live changes.ran with
    rfl | ⟨_, after, unfolds, _⟩
  · cases changes.changed
  · exact ⟨_, unfolds.render_eq layout⟩

theorem propose_eq :
    ∃ condition, propose text cursor action params =
      .ok (.edit outcome.arena node.id ⟨rule, params, condition⟩) := by
  have linked := Arena.validate_eq_ok_iff_linked.mp
    (Arena.validate_ofText changes.read)
  have live := linked.live_of_mem changes.mem_liveNodes
  obtain ⟨condition, general, _⟩ :=
    Condition.generalize_holds linked live rule
  refine ⟨condition, ?_⟩
  simp only [propose, Edit.apply, changes.read, changes.found, changes.named,
    changes.ran, changes.changed, general, bind, Except.bind, if_true]
  rfl

theorem applyAt_eq (session : Session) (settings : Settings) :
    ∃ condition rendered,
      outcome.arena.render settings.layout = .ok rendered ∧
      session.applyAt settings text cursor action params =
        (⟨session.stack.push ⟨rule, params, condition⟩⟩,
          .ok ⟨.applied, rendered, some node.id,
            some ⟨rule, params, condition⟩⟩) := by
  obtain ⟨condition, proposed⟩ := changes.propose_eq
  obtain ⟨rendered, shown⟩ := changes.exists_render settings.layout
  refine ⟨condition, rendered, shown, ?_⟩
  rw [applyAt, proposed]
  simp only [shown]
  rfl

end Changes

/-- How a session answers: with a failure or with nothing to record, and then
it stays as it is, or with a recorded change. -/
theorem applyAt_cases {session after : Session} {settings : Settings}
    {answer : Result EditResult}
    (answered : session.applyAt settings text cursor action params =
      (after, answer)) :
    (∃ failure, answer = .error failure ∧ after = session) ∨
      (∃ result, answer = .ok result ∧ after = session ∧
        result.text = text ∧ result.status ≠ .applied) ∨
      ∃ rule arena node outcome condition rendered,
        Changes text cursor action params rule arena node outcome ∧
        outcome.arena.render settings.layout = .ok rendered ∧
        after = ⟨session.stack.push ⟨rule, params, condition⟩⟩ ∧
        answer = .ok ⟨.applied, rendered, some node.id,
          some ⟨rule, params, condition⟩⟩ := by
  cases proposed : propose text cursor action params with
  | error failure =>
      rw [applyAt, proposed] at answered
      cases answered
      exact .inl ⟨failure, rfl, rfl⟩
  | ok proposal =>
      right
      rcases propose_cases proposed with
        ⟨result, rfl, same, status⟩ |
          ⟨rule, arena, node, outcome, _, changes, _⟩
      · left
        rw [applyAt, proposed] at answered
        cases answered
        refine ⟨result, rfl, rfl, same, ?_⟩
        rcases status with nowhere | unchanged
        · simp [nowhere]
        · simp [unchanged]
      · right
        obtain ⟨condition, rendered, shown, applied⟩ :=
          changes.applyAt_eq session settings
        rw [applied] at answered
        cases answered
        exact ⟨rule, arena, node, outcome, condition, rendered, changes,
          shown, rfl, rfl⟩

/-- A session that fails to edit a text stays as it is, and so does one that
finds nothing to edit, which returns the text.  One that reports an edit has
its record at the end of the stack and returns the text of the edited arena.
It does so whenever a rule changes the formula. -/
theorem applyAt_all_or_nothing {session after : Session} {settings : Settings}
    {text : String} {cursor : Position} {action : Json} {params : Json.Members}
    {answer : Result EditResult}
    (answered : session.applyAt settings text cursor action params =
      (after, answer)) :
    (∀ failure, answer = .error failure → after = session) ∧
    (∀ result, answer = .ok result →
      (result.status = .applied → ∃ rule arena node outcome record,
        Changes text cursor action params rule arena node outcome ∧
        result.record = some record ∧ record.action = rule ∧
        record.params = params ∧
        after.stack.records = session.stack.records ++ [record] ∧
        outcome.arena.render settings.layout = .ok result.text) ∧
      (result.status ≠ .applied → after = session ∧ result.text = text)) ∧
    ∀ rule arena node outcome,
      Changes text cursor action params rule arena node outcome →
      ∃ result, answer = .ok result ∧ result.status = .applied := by
  refine ⟨?_, ?_, ?_⟩
  · rintro failure rfl
    rcases applyAt_cases answered with
      ⟨_, _, kept⟩ | ⟨_, impossible, _⟩ |
        ⟨_, _, _, _, _, _, _, _, _, impossible⟩
    · exact kept
    · cases impossible
    · cases impossible
  · rintro result rfl
    rcases applyAt_cases answered with
      ⟨_, impossible, _⟩ | ⟨_, same, kept, unchanged, status⟩ |
        ⟨rule, arena, node, outcome, condition, rendered, changes, shown, rfl,
          same⟩
    · cases impossible
    · cases same
      exact ⟨fun applied => absurd applied status, fun _ => ⟨kept, unchanged⟩⟩
    · cases same
      refine ⟨?_, fun status => absurd rfl status⟩
      intro _
      exact ⟨rule, arena, node, outcome, _, changes, rfl, rfl, rfl, rfl, shown⟩
  · intro rule arena node outcome changes
    obtain ⟨_, _, _, applied⟩ := changes.applyAt_eq session settings
    rw [applied] at answered
    cases answered
    exact ⟨_, rfl, rfl⟩

/-- When `(not (not p q) r)` is squashed, `q` and `r` hang nowhere and the arena
fails its check.  It is still rendered, and the record stands behind the one
that was there before. -/
theorem applyAt_all_or_nothing_squash :
    ∃ (session after : Session) (result : EditResult) (arena : Arena)
      (node : Node) (outcome : Outcome) (record : Record),
      session.stack.size = 1 ∧
      session.applyAt {} "(not (not p q) r)" ⟨0, 1⟩ (.str "squashNegation")
        [] = (after, .ok result) ∧
      Changes "(not (not p q) r)" ⟨0, 1⟩ (.str "squashNegation") []
        .squashNegation arena node outcome ∧
      outcome.arena.validate.isOk = false ∧
      result.status = .applied ∧ result.text = "p" ∧
      result.record = some record ∧ record.action = .squashNegation ∧
      after.stack.records = session.stack.records ++ [record] := by
  let session : Session := ⟨⟨[{ action := .toggleBreak }]⟩⟩
  obtain ⟨arena, node, outcome, changes, orphaned⟩ :
      ∃ arena node outcome,
        Changes "(not (not p q) r)" ⟨0, 1⟩ (.str "squashNegation") []
          .squashNegation arena node outcome ∧
        outcome.arena.validate.isOk = false :=
    ⟨_, _, _, ⟨rfl, rfl, rfl, rfl, rfl⟩, rfl⟩
  have text : ((session.applyAt {} "(not (not p q) r)" ⟨0, 1⟩
      (.str "squashNegation") []).2.map EditResult.text).toOption =
      some "p" := by
    decide +kernel
  cases answered : session.applyAt {} "(not (not p q) r)" ⟨0, 1⟩
    (.str "squashNegation") [] with
  | mk after answer =>
      rw [answered] at text
      obtain ⟨_, edits, applies⟩ := applyAt_all_or_nothing answered
      obtain ⟨result, rfl, status⟩ := applies _ _ _ _ changes
      obtain ⟨rule, _, _, _, record, again, recorded, same, _, pushed, _⟩ :=
        (edits result rfl).1 status
      have named := again.named
      rw [changes.named] at named
      cases named
      exact ⟨session, after, result, arena, node, outcome, record, rfl,
        answered, changes, orphaned, status, Option.some.inj text, recorded,
        same, pushed⟩

end FormulaEdit.Session
