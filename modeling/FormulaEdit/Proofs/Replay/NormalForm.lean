import FormulaEdit.Proofs.Replay.Budget
import FormulaEdit.Proofs.Rule.Preservation
import FormulaEdit.Proofs.Tree.NormalForm

/-!
# Squashing reaches the normal form

A replay of squashes meets the nodes in the order of their ids.  Ids grow
downwards in a formula that is read, and no squash breaks that, so the first
negation that can be squashed is the top of its chain.  Each change therefore
keeps the normal form, and where no change is left the tree is its own normal
form.
-/

namespace FormulaEdit

namespace Rule

section Squash

variable {arena : Arena} {context : Context} {label : Label}

theorem negatedComparison?_eq_none_iff {token : String} :
    negatedComparison? token = none ↔ token ≠ "<" ∧ token ≠ ">" := by
  unfold negatedComparison?
  grind

theorem squashNegation_of_other {operands : List Tree}
    (holds : arena.Holds context.parent (.node label operands))
    (other : ¬(label.token = "not" ∧ operands ≠ [])) :
    squashNegation arena label.id .always = .ok (.unchanged arena) := by
  apply Result.bind_eq_ok_iff.mpr
  refine ⟨_, Arena.node_of_live holds.slot, ?_⟩
  by_cases negation : label.token = "not"
  · obtain rfl : operands = [] := by
      by_contra more
      exact other ⟨negation, more⟩
    rw [Label.token_node, if_neg (not_not.mpr negation)]
    rfl
  · rw [Label.token_node, if_pos negation]
    rfl

theorem squashNegation_of_negation {inner : Label} {below rest : List Tree}
    (holds : arena.Holds context.parent
      (.node label (.node inner below :: rest)))
    (negation : label.token = "not") :
    squashNegation arena label.id .always =
      squash arena (label.node context.parent
        ((Tree.node inner below :: rest).map Tree.id)) inner.id := by
  have found := Arena.node_of_live holds.slot
  simp only [squashNegation, guarded, found, Condition.holds, bind,
    Except.bind, Label.token_node, negation]
  rfl

theorem squashNegation_eq_ok {operands : List Tree}
    (presents : arena.Presents (context.plug (.node label operands))) :
    ∃ outcome, squashNegation arena label.id .always = .ok outcome ∧
      (outcome.changed = true ↔ Tree.Squashable label operands) := by
  have holds := (Arena.holds_plug_iff.mp presents.holds).2
  by_cases negation : label.token = "not" ∧ operands ≠ []
  · obtain ⟨token, nonempty⟩ := negation
    obtain ⟨⟨inner, below⟩, rest, rfl⟩ := List.exists_cons_of_ne_nil nonempty
    have innerHolds := holds.operand_holds _ List.mem_cons_self
    have innerFound := Arena.node_of_live innerHolds.slot
    have squashable : Tree.Squashable label (.node inner below :: rest) ↔
        inner.token = "not" ∧ below ≠ [] ∨
          inner.token = "<" ∨ inner.token = ">" := by
      constructor
      · rintro ⟨_, _, _, split, fires⟩
        cases split
        exact fires
      · intro fires
        exact ⟨token, _, _, rfl, fires⟩
    rw [squashNegation_of_negation holds token, squashable, squash, innerFound]
    by_cases double : inner.token = "not"
    · cases below with
      | nil =>
          refine ⟨.unchanged arena, ?_, ?_⟩
          · simp [double, bind, Except.bind, pure, Except.pure]
          · simp [double, Outcome.unchanged]
      | cons heir others =>
          obtain ⟨_, _, buried, runs, _⟩ := cancel_eq_ok presents
            ((Tree.node inner (heir :: others) :: rest).map Tree.id)
            ((heir :: others).map Tree.id)
          refine ⟨.edited buried, ?_, ?_⟩
          · simpa [double, bind, Except.bind] using runs
          · simp [double, Outcome.edited]
    · cases opposite : negatedComparison? inner.token with
      | none =>
          refine ⟨.unchanged arena, ?_, ?_⟩
          · simp [double, opposite, bind, Except.bind, pure, Except.pure]
          · simpa [double, Outcome.unchanged] using
              negatedComparison?_eq_none_iff.mp opposite
      | some token =>
          obtain ⟨_, _, buried, runs, _⟩ := absorb_eq_ok token presents
            ((Tree.node inner below :: rest).map Tree.id)
            (below.map Tree.id)
          refine ⟨.edited buried, ?_, ?_⟩
          · simpa [double, opposite, bind, Except.bind] using runs
          · have strict := negatedComparison?_eq_some_iff.mp opposite
            simp only [Outcome.edited, true_iff]
            rcases strict with ⟨less, _⟩ | ⟨greater, _⟩
            · exact .inr (.inl less)
            · exact .inr (.inr greater)
  · refine ⟨_, squashNegation_of_other holds negation, ?_⟩
    simp only [Outcome.unchanged, Bool.false_eq_true, false_iff]
    rintro ⟨token, inner, rest, split, _⟩
    exact negation ⟨token, by simp [split]⟩

end Squash

end Rule

namespace Arena

variable {arena : Arena} {tree : Tree}

theorem Presents.not_squashable {context : Context} {label : Label}
    {operands : List Tree} {record : Record}
    (presents : arena.Presents (context.plug (.node label operands)))
    (rule : record.action = .squashNegation)
    (always : record.condition = .always) {node : Node}
    (here : node.id = label.id) (idle : record.IdleAt arena node) :
    ¬Tree.Squashable label operands := by
  obtain ⟨outcome, ran, changes⟩ := Rule.squashNegation_eq_ok presents
  rw [← changes]
  rcases idle with ⟨other, otherRan, unchanged⟩ | ⟨_, _, refused⟩
  · rw [rule, always, here] at otherRan
    have same : Except.ok other = Except.ok outcome := otherRan.symm.trans ran
    cases same
    simp [unchanged]
  · rw [rule, always, here] at refused
    have same : Except.error _ = Except.ok outcome := refused.symm.trans ran
    cases same

end Arena

theorem Arena.Presents.not_losesOperands {arena : Arena} {context : Context}
    {label : Label} {operands : List Tree}
    (presents : arena.Presents (context.plug (.node label operands)))
    (tidy : (context.plug (.node label operands)).Every Tree.Tidy)
    (negation : label.token = "not") :
    ¬Rule.LosesOperands arena
      (label.node context.parent (operands.map Tree.id)) := by
  have here := Tree.Every.of_plug tidy
  have short := here.root.single negation
  have holds := (Arena.holds_plug_iff.mp presents.holds).2
  match operands with
  | [] =>
      intro loses
      rcases loses with many | ⟨slot, _, first, _⟩
      · cases many
      · cases first
  | [.node inner below] =>
      have innerTidy := here.operand _ List.mem_cons_self
      have innerHolds := holds.operand_holds _ List.mem_cons_self
      rw [Rule.losesOperands_iff innerHolds]
      intro loses
      rcases loses with extra | ⟨double, many⟩
      · exact extra rfl
      · have single := innerTidy.root.single double
        omega
  | _ :: _ :: _ => simp at short

namespace Record

variable {record : Record} {arena : Arena} {tree : Tree}
  (rule : record.action = .squashNegation)
  (always : record.condition = .always)
include rule always

theorem run_squash {context : Context} {label : Label} {operands : List Tree}
    (presents : arena.Presents (context.plug (.node label operands))) :
    ∃ outcome, record.action.run arena label.id record.params
      record.condition = .ok outcome := by
  obtain ⟨outcome, ran, _⟩ := Rule.squashNegation_eq_ok presents
  rw [rule, always]
  exact ⟨outcome, ran⟩

theorem normal_of_settled (presents : arena.Presents tree)
    (tidy : tree.Every Tree.Tidy) (settled : record.step arena = .ok none) :
    tree.form.normal = tree.form := by
  have idle := firstChange_eq_none settled
  apply Tree.normal_eq_self
  apply Tree.Every.of_contexts
  intro context label operands place
  subst place
  refine ⟨(Tree.Every.of_plug tidy).root.single, ?_⟩
  have live := (Arena.holds_plug_iff.mp presents.holds).2.slot
  have member := Arena.mem_liveNodes_iff.mpr ⟨_, live⟩
  exact presents.not_squashable rule always rfl (idle _ member)

/-- The first negation that can be squashed into a comparison is not itself
negated: the negation above it would come first. -/
theorem not_negated {frame : Frame} {outer : Context} {label : Label}
    {operands : List Tree}
    (presents : arena.Presents
      (Context.plug (frame :: outer) (.node label operands)))
    (tidy : (Context.plug (frame :: outer) (.node label operands)).Every
      Tree.Tidy)
    (negation : label.token = "not") (nonempty : operands ≠ [])
    {before after : List Node} {node : Node} (here : label.id = node.id)
    (split : arena.liveNodes = before ++ node :: after)
    (idle : ∀ earlier ∈ before, record.IdleAt arena earlier) :
    frame.label.token ≠ "not" := by
  intro above
  have filled : (frame.fill (.node label operands)).Every Tree.Tidy :=
    Tree.Every.of_plug tidy
  have short := filled.root.single above
  have less := filled.root.ordered (.node label operands) (by simp)
  obtain ⟨frameLabel, frameBefore, frameAfter⟩ := frame
  obtain ⟨rfl, rfl⟩ : frameBefore = [] ∧ frameAfter = [] := by
    simp only [List.length_append, List.length_cons] at short
    constructor
    · exact List.eq_nil_of_length_eq_zero (by omega)
    · exact List.eq_nil_of_length_eq_zero (by omega)
  have framePresents : arena.Presents
      (outer.plug (.node frameLabel [.node label operands])) := presents
  have live : arena.live? frameLabel.id = some (frameLabel.node outer.parent
      [label.id]) := (Arena.holds_plug_iff.mp framePresents.holds).2.slot
  rw [Tree.id_node, here] at less
  have earlier : frameLabel.node outer.parent [label.id] ∈ before :=
    presents.mem_before split live less
  exact framePresents.not_squashable rule always rfl (idle _ earlier)
    ⟨above, _, _, rfl, .inl ⟨negation, nonempty⟩⟩

theorem squash_of_change (presents : arena.Presents tree)
    (tidy : tree.Every Tree.Tidy) {next : Arena}
    (stepped : record.step arena = .ok (some next)) :
    ∃ after, next.Presents after ∧ Squash tree after := by
  obtain ⟨before, node, behind, outcome, split, idle, changed, rfl, ran⟩ :=
    exists_first stepped
  have live : arena.live? node.id = some node := by
    apply presents.live_of_mem
    rw [split]
    exact List.mem_append_right _ List.mem_cons_self
  rw [rule] at ran
  rcases Action.run_cases presents live ran with
    rfl | ⟨_, after, _, rewrites, _, kept⟩
  · cases changed
  refine ⟨after, ?_⟩
  cases rewrites with
  | @cancel context outer inner heir others extras here outerToken innerToken =>
      have outerTidy := Tree.Every.of_plug tidy
      have innerTidy := outerTidy.operand _ List.mem_cons_self
      obtain rfl := List.eq_nil_of_length_eq_zero (show extras.length = 0 by
        simpa using outerTidy.root.single outerToken)
      obtain rfl := List.eq_nil_of_length_eq_zero (show others.length = 0 by
        simpa using innerTidy.root.single innerToken)
      have slot := (Arena.holds_plug_iff.mp presents.holds).2.slot
      rw [here, live] at slot
      cases slot
      have clean := presents.not_losesOperands tidy outerToken
      refine ⟨kept fun lossy => clean lossy.2.2, ?_⟩
      exact Squash.cancel tidy outerToken innerToken
  | @absorb context outer inner token operands extras here outerToken opposite =>
      have outerTidy := Tree.Every.of_plug tidy
      obtain rfl := List.eq_nil_of_length_eq_zero (show extras.length = 0 by
        simpa using outerTidy.root.single outerToken)
      have slot := (Arena.holds_plug_iff.mp presents.holds).2.slot
      rw [here, live] at slot
      cases slot
      have clean := presents.not_losesOperands tidy outerToken
      refine ⟨kept fun lossy => clean lossy.2.2, ?_⟩
      apply Squash.absorb tidy outerToken opposite
      intro frame first
      cases context with
      | nil => cases first
      | cons innermost rest =>
          cases first
          exact not_negated rule always presents tidy outerToken (by simp)
            here split idle

/-- A squash at a node always succeeds, so it makes a change that keeps the
normal form, or has reached it. -/
theorem step_squash (presents : arena.Presents tree)
    (tidy : tree.Every Tree.Tidy) :
    (record.step arena = .ok none ∧ tree.form.normal = tree.form) ∨
      ∃ next after, record.step arena = .ok (some next) ∧
        next.Presents after ∧ Squash tree after := by
  obtain ⟨found, stepped⟩ : ∃ found, record.step arena = .ok found := by
    apply exists_firstChange
    intro node member
    obtain ⟨context, label, operands, rfl, here, _⟩ :=
      presents.exists_plug (presents.live_of_mem member)
    obtain ⟨outcome, ran⟩ := run_squash rule always presents
    rw [here] at ran
    exact ⟨outcome, tryAt_of_ok ran⟩
  cases found with
  | none =>
      exact .inl ⟨stepped, normal_of_settled rule always presents tidy stepped⟩
  | some next =>
      obtain ⟨after, nextPresents, squash⟩ :=
        squash_of_change rule always presents tidy stepped
      exact .inr ⟨next, after, stepped, nextPresents, squash⟩

/-- A squash is repeated until the normal form is reached, in at most as many
changes as there are nodes. -/
theorem reaches_normal (presents : arena.Presents tree)
    (tidy : tree.Every Tree.Tidy) :
    ∃ changes result final, changes ≤ tree.ids.length ∧
      Replay.Reaches ⟨[record], arena⟩ changes ⟨[], result⟩ ∧
      result.Presents final ∧ final.form = tree.form.normal := by
  induction size : tree.ids.length using Nat.strongRecOn
    generalizing arena tree with
  | ind size induction =>
      subst size
      rcases step_squash rule always presents tidy with
        ⟨stepped, same⟩ | ⟨next, after, stepped, nextPresents, squash⟩
      · exact ⟨0, arena, tree, Nat.zero_le _, .settle stepped (.refl _),
          presents, same.symm⟩
      · have fewer := squash.fewer
        obtain ⟨changes, result, final, enough, reaches, finalPresents,
            normal⟩ := induction _ fewer nextPresents squash.tidy rfl
        refine ⟨changes + 1, result, final, by omega,
          .change stepped reaches, finalPresents, ?_⟩
        rw [normal, squash.normal]

end Record

theorem Arena.exists_tidy_of_ofText {text : String} {arena : Arena}
    (read : Arena.ofText text = .ok arena)
    (single : ∀ node ∈ arena.liveNodes,
      node.token = "not" → node.children.length ≤ 1) :
    ∃ tree, arena.Presents tree ∧ tree.Every Tree.Tidy := by
  unfold ofText at read
  split at read
  · next expr _ =>
      cases read
      have presents := Arena.presents_ofExpr expr
      refine ⟨_, presents, ?_⟩
      apply Tree.Every.of_contexts
      intro context label operands place
      have ordered := Tree.ordered_ofExpr 0 expr
      rw [place] at presents ordered
      have slot := (Arena.holds_plug_iff.mp presents.holds).2.slot
      constructor
      · intro negation
        simpa using single _ (Arena.mem_liveNodes_iff.mpr ⟨_, slot⟩) negation
      · exact (Tree.Every.of_plug ordered).root
  · cases read

/-- In a formula that is read and whose negations have at most one operand, a
squash without a condition ends within as many changes as there are nodes, with
a checked arena whose tree is the negation normal form. -/
theorem squash_replay_normalises {text : String} {arena : Arena}
    {params : Json.Members} {budget : Int}
    (read : Arena.ofText text = .ok arena)
    (single : ∀ node ∈ arena.liveNodes,
      node.token = "not" → node.children.length ≤ 1)
    (enough : (arena.liveNodes.length : Int) ≤ budget) :
    ∃ result before after,
      Stack.replay { records := [{ action := .squashNegation, params }] }
        budget arena = .ok result ∧
      result.validate = .ok () ∧
      arena.tree? = some before ∧ result.tree? = some after ∧
      after.form = before.form.normal := by
  obtain ⟨before, presents, tidy⟩ := Arena.exists_tidy_of_ofText read single
  let record : Record := { action := .squashNegation, params }
  obtain ⟨changes, result, after, fewer, reaches, resultPresents, normal⟩ :=
    @Record.reaches_normal record arena before rfl rfl presents tidy
  have nodes := presents.length_ids_le
  obtain ⟨steps, rfl⟩ := Int.eq_ofNat_of_zero_le (show 0 ≤ budget by omega)
  refine ⟨result, before, after, ?_, ?_, presents.tree?_eq_some,
    resultPresents.tree?_eq_some, normal⟩
  · exact Stack.replay_eq_ok_iff.mpr ⟨changes, by omega, reaches⟩
  · exact Arena.validate_eq_ok_iff.mpr ⟨after, resultPresents⟩

/-- Three negations over a comparison turn it around, two over its first
operand vanish, and a negation over a bare one stays: five changes, where
eleven nodes allow eleven. -/
theorem squash_replay_normalises_nested :
    ∃ start result before after,
      Arena.ofText "(or (not (not (not (< (not (not a)) b)))) (not (not)))" =
        .ok start ∧ start.liveNodes.length = 11 ∧
      (∀ node ∈ start.liveNodes,
        node.token = "not" → node.children.length ≤ 1) ∧
      Stack.replay { records := [{ action := .squashNegation }] } 11 start =
        .ok result ∧
      result.liveNodes.map Node.token = ["or", ">=", "a", "b", "not", "not"] ∧
      result.liveNodes.map Node.children = [[4, 9], [7, 8], [], [], [10], []] ∧
      result.validate = .ok () ∧
      start.tree? = some before ∧ result.tree? = some after ∧
      after.form = before.form.normal := by
  have shown : (do
      let start ← Arena.ofText
        "(or (not (not (not (< (not (not a)) b)))) (not (not)))"
      let result ← Stack.replay { records := [{ action := .squashNegation }] }
        11 start
      return (start.liveNodes.length, start.liveNodes.all fun node =>
        node.token != "not" || node.children.length ≤ 1,
        result.liveNodes.map Node.token,
        result.liveNodes.map Node.children)).toOption =
      some (11, true, ["or", ">=", "a", "b", "not", "not"],
        [[4, 9], [7, 8], [], [], [10], []]) := by
    decide +kernel
  obtain ⟨start, read, rest⟩ :=
    Result.bind_eq_ok_iff.mp (Result.toOption_eq_some_iff.mp shown)
  obtain ⟨result, replayed, last⟩ := Result.bind_eq_ok_iff.mp rest
  obtain ⟨nodes, checked, tokens, children⟩ :
      start.liveNodes.length = 11 ∧ (start.liveNodes.all fun node =>
        node.token != "not" || node.children.length ≤ 1) = true ∧
      result.liveNodes.map Node.token = _ ∧
      result.liveNodes.map Node.children = _ := by
    simpa only [Prod.mk.injEq] using Except.ok.inj last
  have single : ∀ node ∈ start.liveNodes,
      node.token = "not" → node.children.length ≤ 1 := by
    intro node member negation
    simpa [negation] using List.all_eq_true.mp checked node member
  obtain ⟨again, before, after, same, valid, shape, resultShape, normal⟩ :=
    @squash_replay_normalises _ start [] 11 read single (by omega)
  rw [replayed] at same
  cases same
  exact ⟨start, result, before, after, read, nodes, single, replayed, tokens,
    children, valid, shape, resultShape, normal⟩

end FormulaEdit
