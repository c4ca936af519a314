import FormulaEdit.Proofs.Rule.Rendering
import FormulaEdit.Proofs.Rule.Writes

/-!
# Operators stay visible

The token of a plain list is not printed, so an operator that came to look
like one would vanish from the text, and a list that stopped looking like one
would show its marker.  No rule does either, and none empties a token.
-/

namespace FormulaEdit

namespace Arena

/-- What a live slot was in an earlier arena. -/
inductive Continues (arena : Arena) (id : Int) (node : Node) : Prop where
  | kept {before : Node} (live : arena.live? id = some before)
      (plain : node.isPlainList = before.isPlainList)
      (named : before.token ≠ "" → node.token ≠ "")
  | new (beyond : arena.size ≤ id) (plain : node.isPlainList = false)
      (named : node.token ≠ "")

/-- Every live slot of an arena goes on from an earlier arena. -/
structure Follows (arena later : Arena) : Prop where
  size_le : arena.size ≤ later.size
  slots : ∀ id node, later.live? id = some node → Continues arena id node

namespace Follows

variable {arena middle later : Arena}

theorem refl (arena : Arena) : arena.Follows arena := by
  refine ⟨Nat.le_refl _, ?_⟩
  intro id node live
  exact .kept live rfl fun named => named

theorem trans (first : arena.Follows middle) (second : middle.Follows later) :
    arena.Follows later := by
  refine ⟨Nat.le_trans first.size_le second.size_le, ?_⟩
  intro id node live
  cases second.slots id node live with
  | @kept between liveBetween plain named =>
      cases first.slots id between liveBetween with
      | kept liveBefore plainBefore namedBefore =>
          exact .kept liveBefore (plain.trans plainBefore) fun nonempty =>
            named (namedBefore nonempty)
      | new beyond plainBefore namedBefore =>
          exact .new beyond (plain.trans plainBefore) (named namedBefore)
  | new beyond plain named =>
      have grown := first.size_le
      exact .new (by omega) plain named

end Follows

theorem Write.follows {allowed : Flag → Prop} {arena edited : Arena}
    (write : arena.Write allowed edited) : arena.Follows edited := by
  refine ⟨write.size_le, ?_⟩
  intro id node live
  obtain ⟨found, alive⟩ := live?_eq_some_iff.mp live
  cases write.wrote found with
  | buried dead =>
      rw [dead] at alive
      cases alive
  | turned present turns =>
      refine .kept (live?_eq_some_iff.mpr ⟨present, ?_⟩) turns.plain turns.named
      rw [← alive, Node.isLive, Node.isLive, turns.id]
  | added new number plain named => exact .new new plain named

/-- Along any writes every live slot goes on from where it was. -/
theorem Writes.follows {allowed : Flag → Prop} {arena later : Arena}
    (writes : arena.Writes allowed later) : arena.Follows later := by
  induction writes with
  | refl => exact .refl arena
  | tail _ write induction => exact induction.trans write.follows

theorem token_ne_empty_of_ofText {text : String} {arena : Arena}
    (read : ofText text = .ok arena) {id : Int} {node : Node}
    (live : arena.live? id = some node) : node.token ≠ "" := by
  obtain ⟨shape, tree, _, readFrom⟩ := exists_formula_of_ofText read
  rcases readFrom.readable node (mem_liveNodes_iff.mpr ⟨id, live⟩) with
    isAtom | ⟨emptyList, _⟩
  · intro empty
    apply (Sexpr.isAtom_iff.mp isAtom).1
    rw [show (Label.ofNode node).token = "" from empty]
    rfl
  · intro empty
    rw [show (Label.ofNode node).token = "" from empty] at emptyList
    exact absurd emptyList (by decide)

end Arena

/-- In every arena that rules lead to, no live token is empty.  Between any
two arenas of a run the slots that are still live are plain lists in both or
in neither, and the slots that rules add never are. -/
theorem operators_stay_visible {text : String} {start earlier later : Arena}
    (read : Arena.ofText text = .ok start)
    (before : Relation.ReflTransGen Arena.RuleStep start earlier)
    (after : Relation.ReflTransGen Arena.RuleStep earlier later) :
    (∀ id node, later.live? id = some node → node.token ≠ "") ∧
    (∀ id node, later.live? id = some node → id < earlier.size →
      ∃ old, earlier.live? id = some old ∧
        (node.isPlainList = true ↔ old.isPlainList = true)) ∧
    ∀ id node, later.live? id = some node → start.size ≤ id →
      node.isPlainList = false := by
  have fromStart := (Arena.writes_of_steps (before.trans after)).follows
  have fromEarlier := (Arena.writes_of_steps after).follows
  refine ⟨?_, ?_, ?_⟩
  · intro id node live
    cases fromStart.slots id node live with
    | kept liveBefore plain named =>
        exact named (Arena.token_ne_empty_of_ofText read liveBefore)
    | new beyond plain named => exact named
  · intro id node live inside
    cases fromEarlier.slots id node live with
    | kept liveBefore plain named => exact ⟨_, liveBefore, by rw [plain]⟩
    | new beyond plain named => omega
  · intro id node live beyond
    cases fromStart.slots id node live with
    | kept liveBefore plain named =>
        have bounds := Arena.live?_bounds liveBefore
        omega
    | new beyond plain named => exact plain

theorem operators_stay_visible_implication : ∃ start earlier later,
    Arena.ofText "(or (p q) r)" = .ok start ∧
    Relation.ReflTransGen Arena.RuleStep start earlier ∧
    Relation.ReflTransGen Arena.RuleStep earlier later ∧
    (∃ old node, earlier.live? 1 = some old ∧ later.live? 1 = some node ∧
      old.isPlainList = true ∧ node.isPlainList = true) ∧
    ∃ node, later.live? 5 = some node ∧ start.size ≤ 5 ∧
      node.token ≠ "" ∧ node.isPlainList = false := by
  let params : Json.Members :=
    [("source", .str "r"), ("target", .str "list"), ("count", .int 0)]
  have shown : (do
      let start ← Arena.ofText "(or (p q) r)"
      let implied ← Action.toImplication.run start 4 [] .always
      let replaced ← Action.replace.run implied.arena 4 params .always
      return (start.size, (implied.arena.live? 1).isSome,
        (replaced.arena.live? 1).map Node.isPlainList,
        (replaced.arena.live? 5).isSome)).toOption =
      some (5, true, some true, true) := by
    decide +kernel
  obtain ⟨start, read, shown⟩ :=
    Result.bind_eq_ok_iff.mp (Result.toOption_eq_some_iff.mp shown)
  obtain ⟨implied, first, shown⟩ := Result.bind_eq_ok_iff.mp shown
  obtain ⟨replaced, second, shown⟩ := Result.bind_eq_ok_iff.mp shown
  simp only [pure, Except.pure, Except.ok.injEq, Prod.mk.injEq] at shown
  obtain ⟨size, inside, live, new⟩ := shown
  obtain ⟨node, found, plain⟩ := Option.map_eq_some_iff.mp live
  obtain ⟨added, present⟩ := Option.isSome_iff_exists.mp new
  obtain ⟨middle, lives⟩ := Option.isSome_iff_exists.mp inside
  have before : Relation.ReflTransGen Arena.RuleStep start implied.arena :=
    .single (.run first)
  have after : Relation.ReflTransGen Arena.RuleStep implied.arena
      replaced.arena := .single (.run second)
  obtain ⟨named, kept, unlisted⟩ := operators_stay_visible read before after
  obtain ⟨old, oldFound, same⟩ := kept 1 node found
    (Arena.live?_bounds lives).2
  refine ⟨start, implied.arena, replaced.arena, read, before, after,
    ⟨old, node, oldFound, found, same.mp plain, plain⟩,
    added, present, by omega, named 5 added present, ?_⟩
  exact unlisted 5 added present (by omega)

end FormulaEdit
