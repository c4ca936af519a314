import FormulaEdit.Proofs.Arena.Build
import FormulaEdit.Proofs.Replay
import FormulaEdit.Proofs.Rule.Writes
import Mathlib.Data.List.Nodup
import Mathlib.Data.List.Perm.Subperm
import Mathlib.Data.List.Pairwise

/-!
# Views stay fresh

The view of an arena is stored beside its slots and drawn anew by hand.  It is
never out of date, whatever rules and replays an arena has gone through.  When
the arena passes its check, the drawn graph is a tree: one box for each live
slot, and one edge to each of them but the root.
-/

namespace FormulaEdit

/-! ## Edges -/

theorem map_id_numberEdges (first : Nat) (links : List (Int × Int)) :
    (numberEdges first links).map Edge.id = List.range' first links.length := by
  induction links generalizing first with
  | nil => rfl
  | cons link links induction =>
      rw [numberEdges, List.map_cons, induction, List.length_cons,
        List.range'_succ]

theorem map_ends_numberEdges (first : Nat) (links : List (Int × Int)) :
    ((numberEdges first links).map fun edge => (edge.source, edge.target)) =
      links := by
  induction links generalizing first with
  | nil => rfl
  | cons link links induction =>
      rw [numberEdges, List.map_cons, induction]

theorem length_numberEdges (first : Nat) (links : List (Int × Int)) :
    (numberEdges first links).length = links.length := by
  rw [← List.length_map Edge.id, map_id_numberEdges, List.length_range']

theorem filter_target_eq_singleton {edges : List Edge}
    (distinct : (edges.map Edge.target).Nodup) {edge : Edge}
    (member : edge ∈ edges) :
    edges.filter (·.target == edge.target) = [edge] := by
  induction edges with
  | nil => cases member
  | cons head edges induction =>
      rw [List.map_cons, List.nodup_cons] at distinct
      obtain ⟨alone, distinctTail⟩ := distinct
      rcases List.mem_cons.mp member with rfl | later
      · have others : edges.filter (·.target == edge.target) = [] := by
          rw [List.filter_eq_nil_iff]
          intro other present same
          apply alone
          rw [← beq_iff_eq.mp same]
          exact List.mem_map_of_mem present
        rw [List.filter_cons, others, if_pos (beq_self_eq_true _)]
      · have apart : (head.target == edge.target) ≠ true := by
          intro same
          apply alone
          rw [beq_iff_eq.mp same]
          exact List.mem_map_of_mem later
        rw [List.filter_cons, if_neg apart, induction distinctTail later]

namespace Arena

/-! ## The graph of a checked arena -/

/-- The ids that live nodes list as children, in the order of the slots. -/
def targets (arena : Arena) : List Int :=
  arena.liveNodes.flatMap (·.children)

theorem targets_eq (arena : Arena) :
    (View.ofNodes arena.slots.toList).edges.map Edge.target =
      arena.targets := by
  have ends := map_ends_numberEdges 0 (arena.liveNodes.flatMap (·.links))
  calc
    _ = ((numberEdges 0 (arena.liveNodes.flatMap (·.links))).map fun edge =>
          (edge.source, edge.target)).map (·.2) := by
        rw [List.map_map]
        rfl
    _ = arena.targets := by
        rw [ends, List.map_flatMap]
        simp only [Node.links, List.map_map, Function.comp_def, List.map_id',
          targets]

namespace Linked

variable {arena : Arena}

theorem nodup_targets (linked : arena.Linked) : arena.targets.Nodup := by
  apply List.nodup_flatMap.mpr
  constructor
  · intro node member
    exact linked.nodup_children (linked.live_of_mem member)
  · apply linked.pairwise_liveNodes.imp_of_mem
    -- A child of both would name both as its parent.
    intro first second firstMember secondMember before child inFirst inSecond
    obtain ⟨below, live, up⟩ := linked.children _ _
      (linked.live_of_mem firstMember) child inFirst
    obtain ⟨belowAgain, liveAgain, upAgain⟩ := linked.children _ _
      (linked.live_of_mem secondMember) child inSecond
    rw [live] at liveAgain
    cases liveAgain
    omega

theorem mem_targets_iff (linked : arena.Linked) {id : Int} :
    id ∈ arena.targets ↔
      id ∈ arena.liveNodes.map (·.id) ∧ id ≠ arena.root := by
  unfold targets
  rw [List.mem_flatMap, List.mem_map]
  constructor
  · rintro ⟨node, member, listed⟩
    obtain ⟨below, live, up⟩ := linked.children _ _
      (linked.live_of_mem member) id listed
    refine ⟨⟨below, mem_liveNodes_iff.mpr ⟨id, live⟩,
      linked.ids id below live⟩, ?_⟩
    rintro rfl
    obtain ⟨root, rootLive, top⟩ := linked.root
    rw [live] at rootLive
    cases rootLive
    exact live?_ne_noParent (linked.live_of_mem member) (up.symm.trans top)
  · rintro ⟨⟨node, member, rfl⟩, notRoot⟩
    have live := linked.live_of_mem member
    have below : node.parent ≠ Node.noParent := by
      intro top
      exact notRoot (linked.oneRoot node.id node live top)
    obtain ⟨parent, parentLive, once⟩ := linked.parents node.id node live below
    refine ⟨parent, mem_liveNodes_iff.mpr ⟨node.parent, parentLive⟩, ?_⟩
    apply List.count_pos_iff.mp
    rw [once]
    exact Nat.one_pos

theorem length_targets (linked : arena.Linked) :
    arena.targets.length + 1 = arena.liveNodes.length := by
  have distinct : (arena.liveNodes.map (·.id)).Nodup := by
    rw [List.Nodup, List.pairwise_map]
    exact linked.pairwise_liveNodes.imp fun before => Int.ne_of_lt before
  obtain ⟨root, rootLive, _⟩ := linked.root
  have rootListed : arena.root ∈ arena.liveNodes.map (·.id) :=
    List.mem_map.mpr ⟨root, mem_liveNodes_iff.mpr ⟨_, rootLive⟩,
      linked.ids _ root rootLive⟩
  have same : arena.targets.Perm
      ((arena.liveNodes.map (·.id)).erase arena.root) := by
    rw [List.perm_ext_iff_of_nodup linked.nodup_targets
      (distinct.erase arena.root)]
    intro id
    rw [linked.mem_targets_iff, distinct.mem_erase_iff, and_comm]
  have length := List.length_erase_add_one rootListed
  rw [same.length_eq, length, List.length_map]

end Linked

/-- A view draws a checked arena: a box for each live slot in the order of the
slots, and edges, numbered in order, one to each live node but the root. -/
structure DrawnBy (arena : Arena) (view : View) : Prop where
  boxes : ∀ box, box ∈ view.boxes ↔
    ∃ node, arena.live? box.id = some node ∧ box.label = node.label
  ordered : view.boxes.Pairwise fun first second => first.id < second.id
  numbers : view.edges.map Edge.id = List.range view.edges.length
  count : view.edges.length + 1 = arena.liveNodes.length
  edge : ∀ node ∈ arena.liveNodes, node.id ≠ arena.root → ∃ number,
    view.edges.filter (·.target == node.id) =
      [⟨number, node.parent, node.id⟩]

theorem Linked.filter_edges {arena : Arena} (linked : arena.Linked)
    {node : Node} (member : node ∈ arena.liveNodes)
    (notRoot : node.id ≠ arena.root) :
    ∃ number, (View.ofNodes arena.slots.toList).edges.filter
      (·.target == node.id) = [⟨number, node.parent, node.id⟩] := by
  have listed : node.id ∈ arena.targets :=
    linked.mem_targets_iff.mpr ⟨List.mem_map_of_mem member, notRoot⟩
  rw [← targets_eq] at listed
  obtain ⟨edge, present, target⟩ := List.mem_map.mp listed
  have distinct :
      ((View.ofNodes arena.slots.toList).edges.map Edge.target).Nodup := by
    rw [targets_eq]
    exact linked.nodup_targets
  have source : edge.source = node.parent := by
    have link : (edge.source, edge.target) ∈
        arena.liveNodes.flatMap (·.links) := by
      rw [← map_ends_numberEdges 0 (arena.liveNodes.flatMap (·.links))]
      exact List.mem_map_of_mem present
    obtain ⟨parent, parentMember, inside⟩ := List.mem_flatMap.mp link
    obtain ⟨child, childListed, ends⟩ := List.mem_map.mp inside
    obtain ⟨fromParent, toChild⟩ := Prod.mk.inj ends
    obtain ⟨below, live, up⟩ := linked.children _ _
      (linked.live_of_mem parentMember) child childListed
    rw [toChild, target, linked.live_of_mem member] at live
    cases live
    rw [up, fromParent]
  refine ⟨edge.id, ?_⟩
  have single := filter_target_eq_singleton distinct present
  rw [← source, ← target]
  exact single

theorem Linked.drawn {arena : Arena} (linked : arena.Linked) :
    arena.DrawnBy (.ofNodes arena.slots.toList) where
  boxes := by
    intro box
    simp only [View.ofNodes, List.mem_map]
    constructor
    · rintro ⟨node, member, rfl⟩
      exact ⟨node, linked.live_of_mem member, rfl⟩
    · rintro ⟨node, live, label⟩
      refine ⟨node, mem_liveNodes_iff.mpr ⟨box.id, live⟩, ?_⟩
      rw [linked.ids box.id node live, ← label]
  ordered := by
    rw [View.ofNodes, List.pairwise_map]
    exact linked.pairwise_liveNodes
  numbers := by
    rw [View.ofNodes, map_id_numberEdges, length_numberEdges,
      List.range_eq_range']
  count := by
    rw [← List.length_map Edge.target, targets_eq]
    exact linked.length_targets
  edge := by
    intro node member notRoot
    exact linked.filter_edges member notRoot

/-! ## Rules and replays -/

/-- The stored view is the one that the slots would give. -/
def Fresh (arena : Arena) : Prop :=
  arena.view = .ofNodes arena.slots.toList

theorem fresh_ofText {text : String} {arena : Arena}
    (read : ofText text = .ok arena) : arena.Fresh := by
  unfold ofText at read
  split at read
  · cases read
    rfl
  · cases read

end Arena

/-- A rule that reports a change has drawn the view anew, and one that reports
none has left the slots alone. -/
theorem Action.fresh_run {action : Action} {arena : Arena} {focus : Int}
    {params : Json.Members} {condition : Condition} {outcome : Outcome}
    (fresh : arena.Fresh)
    (ran : action.run arena focus params condition = .ok outcome) :
    outcome.arena.Fresh := by
  cases Action.wrote_of_run ran with
  | unchanged => exact fresh
  | edited writes => rfl

namespace Arena

/-- One application of a rule, or one replay of a stack. -/
inductive EditStep (arena : Arena) : Arena → Prop where
  | rule {next : Arena} (step : arena.RuleStep next) : EditStep arena next
  | replay {stack : Stack} {budget : Int} {next : Arena}
      (replayed : stack.replay budget arena = .ok next) : EditStep arena next

theorem EditStep.fresh {arena next : Arena} (step : arena.EditStep next)
    (fresh : arena.Fresh) : next.Fresh := by
  cases step with
  | rule step =>
      cases step with
      | run ran => exact Action.fresh_run fresh ran
  | replay replayed =>
      apply Stack.replay_keeps _ fresh replayed
      intro record _ between node outcome stillFresh _ ran _
      exact Action.fresh_run stillFresh ran

theorem fresh_of_steps {text : String} {start arena : Arena}
    (read : ofText text = .ok start)
    (steps : Relation.ReflTransGen EditStep start arena) : arena.Fresh := by
  induction steps with
  | refl => exact fresh_ofText read
  | tail _ step induction => exact step.fresh induction

end Arena

/-- After any rules and replays the view is the one of the current slots, and
when the arena passes its check the view draws it as a tree. -/
theorem view_stays_fresh {text : String} {start arena : Arena}
    (read : Arena.ofText text = .ok start)
    (steps : Relation.ReflTransGen Arena.EditStep start arena) :
    arena.view = .ofNodes arena.slots.toList ∧
      (arena.validate = .ok () → arena.DrawnBy arena.view) := by
  have fresh := Arena.fresh_of_steps read steps
  refine ⟨fresh, ?_⟩
  intro valid
  rw [show arena.view = _ from fresh]
  exact (Arena.validate_eq_ok_iff_linked.mp valid).drawn

theorem view_stays_fresh_squashes : ∃ start arena,
    Arena.ofText "(and (not (not p)) (not (not q)))" = .ok start ∧
    Relation.ReflTransGen Arena.EditStep start arena ∧
    arena.view = .ofNodes arena.slots.toList ∧
    arena.validate = .ok () ∧ arena.liveNodes.map Node.id = [0, 3, 6] ∧
    arena.DrawnBy arena.view := by
  let stack : Stack := { records := [{ action := .squashNegation }] }
  have shown : (do
      let start ← Arena.ofText "(and (not (not p)) (not (not q)))"
      let outcome ← Action.squashNegation.run start 1 [] .always
      let arena ← stack.replay 1 outcome.arena
      arena.validate
      return arena.liveNodes.map Node.id).toOption = some [0, 3, 6] := by
    decide +kernel
  obtain ⟨start, read, rest⟩ :=
    Result.bind_eq_ok_iff.mp (Result.toOption_eq_some_iff.mp shown)
  obtain ⟨outcome, ran, rest⟩ := Result.bind_eq_ok_iff.mp rest
  obtain ⟨arena, replayed, rest⟩ := Result.bind_eq_ok_iff.mp rest
  obtain ⟨_, valid, last⟩ := Result.bind_eq_ok_iff.mp rest
  have steps : Relation.ReflTransGen Arena.EditStep start arena :=
    .tail (.single (.rule (.run ran))) (.replay replayed)
  obtain ⟨fresh, drawn⟩ := view_stays_fresh read steps
  exact ⟨start, arena, read, steps, fresh, valid, Except.ok.inj last,
    drawn valid⟩

end FormulaEdit
