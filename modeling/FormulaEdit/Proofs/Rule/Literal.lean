import FormulaEdit.Arena.Build
import FormulaEdit.Proofs.Pattern.Substitution
import FormulaEdit.Proofs.Rule.InPlace

/-!
# Replacing a text

Without a pattern in its parameters, a replacement puts a text as it stands in
the place of another.  The source is quoted and matched as a pattern, and the
target is quoted and read as a template, but neither has a meaning of its own
left: every token becomes the text with the first occurrences replaced.
-/

namespace FormulaEdit.Rule

/-- A text to be replaced, the text to be put in its place, and the number of
occurrences in each token.  A count of zero means all of them. -/
structure Literal where
  source : String
  target : String
  count : Nat

namespace Literal

/-- The parameters ask for a text to be replaced, and not for a pattern. -/
structure Asked (literal : Literal) (params : Json.Members) : Prop where
  source : params.get? "source" = some (.str literal.source)
  target : params.get? "target" = some (.str literal.target)
  count : (params.get? "count").getD (.int 1) = .int literal.count
  plain : ((params.get? "regex").getD .null).isTruthy = false
  nonempty : literal.source ≠ ""
  bounded : literal.count < Replacement.countBound

variable (literal : Literal)

/-- A token after the replacement. -/
def onToken (token : String) : String :=
  String.ofList (Text.replaceOccurrences literal.source.toList
    literal.target.toList literal.count token.toList)

/-- A slot after the replacement: tombstones and plain lists stay. -/
def onNode (node : Node) : Node :=
  if node.isLive && !node.isPlainList then
    { node with token := literal.onToken node.token }
  else node

/-- The replacement would leave a node without a token, or turn it into a
plain list. -/
def Spoils (node : Node) : Prop :=
  node.isPlainList = false ∧
    (literal.onToken node.token = "" ∨
      literal.onToken node.token = Node.listMarker ∧ node.children ≠ [])

/-- The replacement gives a node another token. -/
def Changes (node : Node) : Prop :=
  node.isPlainList = false ∧ literal.onToken node.token ≠ node.token

instance (node : Node) : Decidable (literal.Spoils node) :=
  inferInstanceAs (Decidable (_ ∧ _))

instance (node : Node) : Decidable (literal.Changes node) :=
  inferInstanceAs (Decidable (_ ∧ _))

/-- The same replacement, in the form in which it is carried out. -/
def replacement : Replacement :=
  { pattern := Pattern.exactly literal.source.toList
    template := Pattern.quoteTemplate literal.target.toList
    count := literal.count }

variable {literal} {params : Json.Members}

theorem replaces (nonempty : literal.source ≠ "") (token : String) :
    Text.Replaces literal.source.toList literal.target.toList
      (if literal.count = 0 then none else some literal.count) token.toList
      (literal.onToken token).toList := by
  rw [onToken, String.toList_ofList]
  exact (Text.replaces_iff (by simpa using nonempty)).mpr rfl

theorem Asked.ofParams (asked : literal.Asked params) :
    Replacement.ofParams params = .ok literal.replacement := by
  have source : Replacement.readSource params = .ok literal.source.toList := by
    have full : literal.source.isEmpty = false := by
      simpa using asked.nonempty
    simp [Replacement.readSource, asked.source, full]
  have target : Replacement.readTarget params = .ok literal.target.toList := by
    simp [Replacement.readTarget, asked.target]
  have count : Replacement.readCount params = .ok literal.count := by
    rw [Replacement.readCount, asked.count]
  have plain : Replacement.readsPattern params = false := asked.plain
  have pattern : Replacement.readPattern params literal.source.toList =
      .ok (Pattern.exactly literal.source.toList) := by
    rw [Replacement.readPattern, plain, if_neg Bool.false_ne_true,
      Pattern.compile_quote]
  simp only [Replacement.ofParams, source, target, count, pattern, plain,
    bind, Except.bind, Bool.false_eq_true, if_false]
  rfl

/-- A token becomes the text with its occurrences replaced, whatever the texts
would mean as a pattern and a template. -/
theorem Asked.apply (asked : literal.Asked params) (token : String) :
    literal.replacement.apply token.toList =
      .ok (Text.replaceOccurrences literal.source.toList
        literal.target.toList literal.count token.toList) := by
  have allowed : ¬Replacement.countBound ≤ literal.replacement.count :=
    Nat.not_le.mpr asked.bounded
  have nonempty : literal.source.toList ≠ [] := by
    simpa using asked.nonempty
  rw [Replacement.apply, if_neg allowed]
  simp only [replacement, Pattern.readTemplate_quoteTemplate]
  rw [Pattern.replace_exactly nonempty]

theorem isAllowed_iff {node : Node} (shown : node.isPlainList = false) :
    Replacement.isAllowed node (literal.onToken node.token) = true ↔
      ¬literal.Spoils node := by
  simp only [Replacement.isAllowed, Spoils, shown, true_and, not_or, not_and,
    Bool.and_eq_true, Bool.not_eq_true', Bool.or_eq_true, bne_iff_ne]
  rw [String.isEmpty_eq_false_iff, List.isEmpty_iff, or_comm,
    ← imp_iff_not_or, not_not]

theorem Asked.onNode (asked : literal.Asked params) (node : Node) :
    (node.isLive = true ∧ literal.Spoils node ∧
      literal.replacement.onNode node = .error (.params
        (.reserved node.id node.token (literal.onToken node.token)))) ∨
    ((node.isLive = true → ¬literal.Spoils node) ∧
      literal.replacement.onNode node =
        .ok (node.isLive && decide (literal.Changes node),
          literal.onNode node)) := by
  cases live : node.isLive with
  | false =>
      right
      simp [Replacement.onNode, Literal.onNode, live]
  | true =>
      cases shown : node.isPlainList with
      | true =>
          right
          simp [Replacement.onNode, Literal.onNode, Spoils, Changes, live,
            shown]
      | false =>
          have made : literal.replacement.onNode node =
              if Replacement.isAllowed node (literal.onToken node.token) then
                .ok (literal.onToken node.token != node.token,
                  { node with token := literal.onToken node.token })
              else .error (.params
                (.reserved node.id node.token
                  (literal.onToken node.token))) := by
            simp only [Replacement.onNode, live, shown, asked.apply, bind,
              Except.bind, Bool.not_true, Bool.or_self, Bool.false_eq_true,
              if_false]
            rfl
          rw [made]
          by_cases spoils : literal.Spoils node
          · rw [if_neg ((isAllowed_iff shown).not_left.mpr spoils)]
            exact .inl ⟨rfl, spoils, rfl⟩
          · rw [if_pos ((isAllowed_iff shown).mpr spoils)]
            refine .inr ⟨fun _ => spoils, ?_⟩
            have flag : (literal.onToken node.token != node.token) =
                (true && decide (literal.Changes node)) := by
              rw [Bool.eq_iff_iff]
              simp [Changes, shown]
            rw [flag, Literal.onNode, live, shown]
            rfl

theorem Asked.onNodes (asked : literal.Asked params) (nodes : List Node) :
    (∃ node ∈ nodes, node.isLive = true ∧ literal.Spoils node ∧
      literal.replacement.onNodes nodes = .error (.params
        (.reserved node.id node.token (literal.onToken node.token)))) ∨
    ((∀ node ∈ nodes, node.isLive = true → ¬literal.Spoils node) ∧
      literal.replacement.onNodes nodes =
        .ok (nodes.any fun node =>
            node.isLive && decide (literal.Changes node),
          nodes.map literal.onNode)) := by
  induction nodes with
  | nil => exact .inr ⟨by simp, rfl⟩
  | cons node nodes induction =>
      rw [Replacement.onNodes]
      rcases asked.onNode node with ⟨live, spoils, failed⟩ | ⟨spares, made⟩
      · exact .inl ⟨node, List.mem_cons_self, live, spoils, by rw [failed]; rfl⟩
      rw [made]
      rcases induction with
        ⟨later, member, live, spoils, failed⟩ | ⟨sparesAll, madeAll⟩
      · exact .inl ⟨later, List.mem_cons_of_mem _ member, live, spoils,
          by rw [failed]; rfl⟩
      · rw [madeAll]
        exact .inr ⟨List.forall_mem_cons.mpr ⟨spares, sparesAll⟩, rfl⟩

variable {arena : Arena} {focus : Int} {node : Node} {condition : Condition}

/-- The outcome of a replacement that spoils no node. -/
def outcome (literal : Literal) (arena : Arena) : Outcome :=
  if ∃ node ∈ arena.liveNodes, literal.Changes node then
    .edited { arena with slots := arena.slots.map literal.onNode }
  else .unchanged arena

theorem Asked.run (asked : literal.Asked params)
    (live : arena.live? focus = some node)
    (holds : condition.holds arena node = .ok true) :
    (∃ other ∈ arena.liveNodes, literal.Spoils other ∧
      Action.replace.run arena focus params condition = .error (.params
        (.reserved other.id other.token (literal.onToken other.token)))) ∨
    ((∀ other ∈ arena.liveNodes, ¬literal.Spoils other) ∧
      Action.replace.run arena focus params condition =
        .ok (literal.outcome arena)) := by
  have made : Action.replace.run arena focus params condition =
      (literal.replacement.onNodes arena.slots.toList >>= fun result =>
        if result.1 then
          .ok (.edited { arena with slots := result.2.toArray })
        else .ok (.unchanged arena)) := by
    rw [Action.run, replace, asked.ofParams]
    exact guarded_of_decided live holds
  rw [made]
  rcases asked.onNodes arena.slots.toList with
    ⟨other, member, alive, spoils, failed⟩ | ⟨spares, done⟩
  · refine .inl ⟨other, List.mem_filter.mpr ⟨member, alive⟩, spoils, ?_⟩
    rw [failed]
    rfl
  · refine .inr ⟨fun other member => ?_, ?_⟩
    · obtain ⟨stored, alive⟩ := List.mem_filter.mp member
      exact spares other stored alive
    · rw [done, outcome]
      have flag : (arena.slots.toList.any fun node =>
          node.isLive && decide (literal.Changes node)) =
          decide (∃ node ∈ arena.liveNodes, literal.Changes node) := by
        rw [Bool.eq_iff_iff, List.any_eq_true]
        simp [Arena.liveNodes, and_assoc]
      have slots : (arena.slots.toList.map literal.onNode).toArray =
          arena.slots.map literal.onNode := by
        rw [← Array.toList_map]
      rw [flag, ← slots]
      by_cases changes : ∃ node ∈ arena.liveNodes, literal.Changes node
      · rw [if_pos changes, decide_eq_true changes]
        rfl
      · rw [if_neg changes, decide_eq_false changes]
        rfl

theorem onNode_of_unchanged (same : node.isLive = true →
    ¬literal.Changes node) : literal.onNode node = node := by
  rw [Literal.onNode]
  split
  next reached =>
    simp only [Bool.and_eq_true, Bool.not_eq_true'] at reached
    have kept : literal.onToken node.token = node.token := by
      by_contra other
      exact same reached.1 ⟨reached.2, other⟩
    rw [kept]
  next => rfl

theorem slots_outcome (literal : Literal) (arena : Arena) :
    (literal.outcome arena).arena.slots = arena.slots.map literal.onNode := by
  rw [outcome]
  split
  next => rfl
  next none =>
    refine (Arena.map_slots_eq_self fun node stored => ?_).symm
    refine onNode_of_unchanged fun alive changes => none ?_
    exact ⟨node, List.mem_filter.mpr ⟨stored, alive⟩, changes⟩

theorem root_outcome (literal : Literal) (arena : Arena) :
    (literal.outcome arena).arena.root = arena.root := by
  rw [outcome]
  split
  next => rfl
  next => rfl

theorem changed_outcome (literal : Literal) (arena : Arena) :
    (literal.outcome arena).changed = true ↔
      ∃ node ∈ arena.liveNodes, literal.Changes node := by
  rw [outcome]
  split
  next changes => exact iff_of_true rfl changes
  next none => exact iff_of_false Bool.false_ne_true none

theorem view_outcome (literal : Literal) (arena : Arena) :
    (literal.outcome arena).arena.view =
      if (literal.outcome arena).changed then
        .ofNodes (literal.outcome arena).arena.slots.toList
      else arena.view := by
  rw [outcome]
  split
  next => rfl
  next => rfl

end Literal

/-- Replacing a text fails just when some node would be spoiled.  Otherwise
every token becomes the text with the occurrences replaced, and nothing else
changes but the view, which is drawn anew if a token has changed. -/
theorem text_replaced_as_it_stands {literal : Literal} {params : Json.Members}
    {arena : Arena} {focus : Int} {node : Node} {condition : Condition}
    (live : arena.live? focus = some node)
    (holds : condition.holds arena node = .ok true)
    (asked : literal.Asked params) :
    ((∃ fault, Action.replace.run arena focus params condition =
        .error (.params fault)) ↔
      ∃ other ∈ arena.liveNodes, literal.Spoils other) ∧
    ((∀ other ∈ arena.liveNodes, ¬literal.Spoils other) →
      ∃ outcome, Action.replace.run arena focus params condition =
          .ok outcome ∧
        outcome.arena.root = arena.root ∧
        outcome.arena.slots = arena.slots.map literal.onNode ∧
        (outcome.changed = true ↔
          ∃ other ∈ arena.liveNodes, literal.Changes other) ∧
        outcome.arena.view =
          if outcome.changed then .ofNodes outcome.arena.slots.toList
          else arena.view) := by
  rcases asked.run live holds with
    ⟨other, member, spoils, failed⟩ | ⟨spares, done⟩
  · rw [failed]
    refine ⟨iff_of_true ⟨_, rfl⟩ ⟨other, member, spoils⟩, fun spares => ?_⟩
    exact absurd spoils (spares other member)
  · rw [done]
    refine ⟨iff_of_false ?_ ?_, fun _ => ?_⟩
    · rintro ⟨fault, failed⟩
      cases failed
    · rintro ⟨other, member, spoils⟩
      exact spares other member spoils
    · exact ⟨_, rfl, literal.root_outcome arena, literal.slots_outcome arena,
        literal.changed_outcome arena, literal.view_outcome arena⟩

/-- A dot in the source and group references in the target mean nothing, and
an empty target spoils the nodes whose whole token it replaces. -/
theorem text_replaced_as_it_stands_escapes :
    ∃ (start : Arena) (outcome : Outcome),
      Arena.ofText "(and a.b axb (p a.ba.b))" = .ok start ∧
      Action.replace.run start 0 [("source", .str "a.b"),
          ("target", .str "\\1\\g<0>"), ("count", .int 0),
          ("regex", .str "")] .always = .ok outcome ∧
      outcome.changed = true ∧
      outcome.arena.slots.toList.map Node.token =
        ["and", "\\1\\g<0>", "axb", "list", "p",
          "\\1\\g<0>\\1\\g<0>"] ∧
      ∃ fault, Action.replace.run start 0
        [("source", .str "a.b"), ("target", .str "")] .always =
          .error (.params fault) := by
  let renames : Literal := ⟨"a.b", "\\1\\g<0>", 0⟩
  let erases : Literal := ⟨"a.b", "", 1⟩
  have shown : (do
      let start ← Arena.ofText "(and a.b axb (p a.ba.b))"
      return ((start.live? 0).isSome,
        decide (∃ node ∈ start.liveNodes, renames.Changes node),
        decide (∃ node ∈ start.liveNodes, renames.Spoils node),
        decide (∃ node ∈ start.liveNodes, erases.Spoils node),
        start.slots.toList.map fun node =>
          (renames.onNode node).token)).toOption =
      some (true, true, false, true, ["and", "\\1\\g<0>", "axb", "list", "p",
        "\\1\\g<0>\\1\\g<0>"]) := by
    decide +kernel
  obtain ⟨start, read, last⟩ :=
    Result.bind_eq_ok_iff.mp (Result.toOption_eq_some_iff.mp shown)
  simp only [pure, Except.pure, Except.ok.injEq, Prod.mk.injEq,
    decide_eq_true_eq, decide_eq_false_iff_not] at last
  obtain ⟨found, changes, spares, spoils, tokens⟩ := last
  obtain ⟨root, live⟩ := Option.isSome_iff_exists.mp found
  have renamed : renames.Asked [("source", .str "a.b"),
      ("target", .str "\\1\\g<0>"), ("count", .int 0), ("regex", .str "")] :=
    { source := rfl, target := rfl, count := rfl, plain := rfl
      nonempty := by decide, bounded := by decide }
  have erased : erases.Asked [("source", .str "a.b"), ("target", .str "")] :=
    { source := rfl, target := rfl, count := rfl, plain := rfl
      nonempty := by decide, bounded := by decide }
  obtain ⟨outcome, ran, _, slots, changed, _⟩ :=
    (@text_replaced_as_it_stands renames _ _ _ _ .always live rfl renamed).2
      fun other member spoils => spares ⟨other, member, spoils⟩
  refine ⟨start, outcome, read, ran, changed.mpr changes, ?_,
    (@text_replaced_as_it_stands erases _ _ _ _ .always live rfl
      erased).1.mpr spoils⟩
  rw [slots, Array.toList_map, List.map_map]
  exact tokens

end FormulaEdit.Rule
