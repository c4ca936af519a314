import FormulaEdit.Proofs.Replay.Budget
import FormulaEdit.Proofs.Rule.Edits
import Mathlib.Data.Finset.Card

/-!
# Stacks that settle

Squashing a negation removes nodes.  Making a branch of a disjunction a premise
adds two nodes, but the branch no longer hangs at a disjunction.  No change of
the two kinds hangs a further node at a disjunction, so the number of nodes
and three times the number of branches fall together with every change.  This
bounds the changes of every stack made of the two rules, whatever its length
and its conditions.
-/

namespace FormulaEdit

namespace Arena

/-- Whether a node hangs at a disjunction. -/
def isBranch (arena : Arena) (node : Node) : Bool :=
  match arena.parentOf node with
  | .ok (some parent) => parent.token == "or"
  | _ => false

/-- The live nodes that hang at a disjunction. -/
def branches (arena : Arena) : List Node :=
  arena.liveNodes.filter arena.isBranch

def liveIds (arena : Arena) : Finset Int :=
  (arena.liveNodes.map Node.id).toFinset

def branchIds (arena : Arena) : Finset Int :=
  (arena.branches.map Node.id).toFinset

/-- What every change by a squash or an implication takes from. -/
def weight (arena : Arena) : Nat :=
  arena.liveIds.card + 3 * arena.branchIds.card

theorem weight_le (arena : Arena) :
    arena.weight ≤ arena.liveNodes.length + 3 * arena.branches.length := by
  have nodes := List.toFinset_card_le (arena.liveNodes.map Node.id)
  have branches := List.toFinset_card_le (arena.branches.map Node.id)
  rw [List.length_map] at nodes branches
  unfold weight liveIds branchIds
  omega

theorem weight_edited (arena : Arena) :
    (Outcome.edited arena).arena.weight = arena.weight := rfl

namespace Wired

variable {arena : Arena} (wired : arena.Wired) {id : Int}
include wired

theorem mem_liveIds_iff :
    id ∈ arena.liveIds ↔ ∃ node, arena.live? id = some node := by
  unfold liveIds
  rw [List.mem_toFinset, List.mem_map]
  constructor
  · intro ⟨node, member, same⟩
    subst same
    exact ⟨node, wired.live_of_mem member⟩
  · intro ⟨node, live⟩
    exact ⟨node, mem_liveNodes_iff.mpr ⟨id, live⟩, wired.ids id node live⟩

/-- Only a live parent makes a node a branch: the tombstone is no
disjunction. -/
theorem isBranch_iff {node : Node} (live : arena.live? id = some node) :
    arena.isBranch node = true ↔
      ∃ parent, arena.live? node.parent = some parent ∧
        parent.token = "or" := by
  unfold isBranch
  constructor
  · intro branch
    split at branch
    next parent found =>
      have disjunction := beq_iff_eq.mp branch
      rcases Rule.live_or_tombstone_of_parentOf wired.cleared live found with
        parentLive | rfl
      · exact ⟨parent, parentLive, disjunction⟩
      · exact absurd disjunction (by decide)
    next => cases branch
  · intro ⟨parent, parentLive, disjunction⟩
    have found : arena.parentOf node = .ok (some parent) := by
      rw [parentOf, if_neg (live?_ne_noParent parentLive),
        node_of_live parentLive]
      rfl
    rw [found]
    exact beq_iff_eq.mpr disjunction

theorem mem_branchIds_iff :
    id ∈ arena.branchIds ↔ ∃ node parent, arena.live? id = some node ∧
      arena.live? node.parent = some parent ∧ parent.token = "or" := by
  unfold branchIds branches
  rw [List.mem_toFinset, List.mem_map]
  constructor
  · intro ⟨node, member, same⟩
    subst same
    obtain ⟨inside, branch⟩ := List.mem_filter.mp member
    have live := wired.live_of_mem inside
    obtain ⟨parent, above⟩ := (wired.isBranch_iff live).mp branch
    exact ⟨node, parent, live, above⟩
  · intro ⟨node, parent, live, above⟩
    have branch := (wired.isBranch_iff live).mpr ⟨parent, above⟩
    refine ⟨node, List.mem_filter.mpr ⟨?_, branch⟩, wired.ids id node live⟩
    exact mem_liveNodes_iff.mpr ⟨id, live⟩

end Wired

end Arena

namespace Rule

variable {arena edited : Arena} (wired : arena.Wired)

section Weights

include wired

theorem Relabels.weight_le {change : Int → Node → Node}
    (relabels : Relabels arena change edited)
    (disjunction : ∀ id node, arena.live? id = some node →
      (change id node).token = "or" → node.token = "or") :
    edited.weight ≤ arena.weight := by
  have stillWired := relabels.wired wired
  have nodes : edited.liveIds ⊆ arena.liveIds := by
    intro id member
    obtain ⟨after, present⟩ := stillWired.mem_liveIds_iff.mp member
    obtain ⟨node, live, _⟩ := relabels.exists_before present
    exact wired.mem_liveIds_iff.mpr ⟨node, live⟩
  have branches : edited.branchIds ⊆ arena.branchIds := by
    intro id member
    obtain ⟨after, above, present, abovePresent, token⟩ :=
      stillWired.mem_branchIds_iff.mp member
    obtain ⟨node, live, rfl⟩ := relabels.exists_before present
    rw [relabels.parent id node live] at abovePresent
    obtain ⟨parent, parentLive, rfl⟩ := relabels.exists_before abovePresent
    exact wired.mem_branchIds_iff.mpr ⟨node, parent, live, parentLive,
      disjunction _ parent parentLive token⟩
  have fewerNodes := Finset.card_le_card nodes
  have fewerBranches := Finset.card_le_card branches
  unfold Arena.weight
  omega

variable {old heir : Node} {buried children : List Int}

theorem Hoists.card_liveIds_lt
    (hoists : Hoists arena old heir buried children edited) :
    edited.liveIds.card < arena.liveIds.card := by
  have stillWired := hoists.wired_edited wired
  have nodes : edited.liveIds ⊆ arena.liveIds := by
    intro id member
    obtain ⟨after, present⟩ := stillWired.mem_liveIds_iff.mp member
    obtain ⟨_, node, live, _⟩ := hoists.exists_before present
    exact wired.mem_liveIds_iff.mpr ⟨node, live⟩
  apply Finset.card_lt_card
  apply (Finset.ssubset_iff_of_subset nodes).mpr
  refine ⟨old.id, wired.mem_liveIds_iff.mpr ⟨old, hoists.oldLive⟩, ?_⟩
  intro member
  obtain ⟨after, present⟩ := stillWired.mem_liveIds_iff.mp member
  exact (hoists.exists_before present).1 hoists.oldBuried

/-- The heir is a branch just when the node was that it stands for, and every
other branch was one before. -/
theorem Hoists.card_branchIds_le
    (hoists : Hoists arena old heir buried children edited) :
    edited.branchIds.card ≤ arena.branchIds.card := by
  have stillWired := hoists.wired_edited wired
  have kept : ∀ {id : Int}, id ∈ edited.branchIds → id ≠ old.id := by
    intro id member
    obtain ⟨after, _, present, _⟩ := stillWired.mem_branchIds_iff.mp member
    intro same
    rw [same] at present
    exact (hoists.exists_before present).1 hoists.oldBuried
  let origin (id : Int) : Int := if id = heir.id then old.id else id
  have origin_heir : origin heir.id = old.id := if_pos rfl
  have origin_other : ∀ {id : Int}, id ≠ heir.id → origin id = id :=
    fun other => if_neg other
  apply Finset.card_le_card_of_injOn origin
  · intro id member
    obtain ⟨after, above, present, abovePresent, token⟩ :=
      stillWired.mem_branchIds_iff.mp member
    obtain ⟨_, node, live, rfl⟩ := hoists.exists_before present
    obtain ⟨_, parent, parentLive, rfl⟩ := hoists.exists_before abovePresent
    rw [rehung_token] at token
    apply wired.mem_branchIds_iff.mpr
    by_cases isHeir : id = heir.id
    · subst isHeir
      rw [origin_heir]
      rw [rehung_heir] at parentLive
      exact ⟨old, parent, hoists.oldLive, parentLive, token⟩
    · rw [origin_other isHeir]
      rw [rehung_parent isHeir] at parentLive
      exact ⟨node, parent, live, parentLive, token⟩
  · intro first firstMember second secondMember same
    have firstKept := kept firstMember
    have secondKept := kept secondMember
    by_cases firstHeir : first = heir.id
    · by_cases secondHeir : second = heir.id
      · rw [firstHeir, secondHeir]
      · rw [firstHeir, origin_heir, origin_other secondHeir] at same
        exact absurd same.symm secondKept
    · rw [origin_other firstHeir] at same
      by_cases secondHeir : second = heir.id
      · rw [secondHeir, origin_heir] at same
        exact absurd same firstKept
      · rw [origin_other secondHeir] at same
        exact same

theorem Squashes.weight_lt (squashes : Squashes arena edited) :
    edited.weight < arena.weight := by
  cases squashes with
  | intro relabels disjunction hoists =>
      have retokenedWired := relabels.wired wired
      have before := relabels.weight_le wired disjunction
      have nodes := hoists.card_liveIds_lt retokenedWired
      have branches := hoists.card_branchIds_le retokenedWired
      unfold Arena.weight at before ⊢
      omega

end Weights

namespace Implies

variable {label : Label} {parent branch : Int} {children : List Int}
  (implies : Implies arena label parent branch children edited)
include wired implies

theorem card_liveIds_le : edited.liveIds.card ≤ arena.liveIds.card + 2 := by
  have stillWired := wired_edited wired implies
  let premise : Int := arena.size
  let conclusion : Int := (arena.size + 1 : Nat)
  have nodes : edited.liveIds ⊆
      insert premise (insert conclusion arena.liveIds) := by
    intro id member
    obtain ⟨after, present⟩ := stillWired.mem_liveIds_iff.mp member
    rw [Finset.mem_insert, Finset.mem_insert, wired.mem_liveIds_iff]
    cases (slot_iff wired implies).mp present with
    | implication here _ => exact .inr (.inr ⟨_, here ▸ implies.slot⟩)
    | premise here _ => exact .inl here
    | conclusion here _ => exact .inr (.inl here)
    | adopted node _ found _ => exact .inr (.inr ⟨node, found⟩)
    | kept _ _ found => exact .inr (.inr ⟨after, found⟩)
  calc
    edited.liveIds.card
    _ ≤ (insert premise (insert conclusion arena.liveIds)).card :=
      Finset.card_le_card nodes
    _ ≤ (insert conclusion arena.liveIds).card + 1 := Finset.card_insert_le _ _
    _ ≤ arena.liveIds.card + 1 + 1 :=
      Nat.succ_le_succ (Finset.card_insert_le _ _)

theorem mem_branchIds_of_listed (disjunction : label.token = "or") {id : Int}
    (listed : id ∈ children) : id ∈ arena.branchIds := by
  obtain ⟨node, live, up⟩ := child_back wired implies listed
  rw [wired.mem_branchIds_iff]
  exact ⟨node, _, live, up ▸ implies.slot, disjunction⟩

theorem mem_branchIds_before {id : Int} {node above : Node}
    (live : arena.live? id = some node) (elsewhere : node.parent ≠ label.id)
    (present : edited.live? node.parent = some above)
    (disjunction : above.token = "or") : id ∈ arena.branchIds := by
  apply wired.mem_branchIds_iff.mpr
  have bound := wired.inside id node live
  cases (slot_iff wired implies).mp present with
  | implication here _ => exact absurd here elsewhere
  | premise here _ => omega
  | conclusion here _ => omega
  | adopted before _ found holds =>
      rw [holds] at disjunction
      exact ⟨node, before, live, found, disjunction⟩
  | kept _ _ found => exact ⟨node, above, live, found, disjunction⟩

/-- The branch that becomes a premise is no branch any more, and the others
hang at a disjunction as they did. -/
theorem branchIds_subset (disjunction : label.token = "or") :
    edited.branchIds ⊆ arena.branchIds.erase branch := by
  have stillWired := wired_edited wired implies
  intro id member
  obtain ⟨after, above, present, abovePresent, token⟩ :=
    stillWired.mem_branchIds_iff.mp member
  rw [Finset.mem_erase]
  cases (slot_iff wired implies).mp present with
  | implication here holds =>
      subst here holds
      refine ⟨?_, ?_⟩
      · intro same
        exact label_notMem wired implies (same ▸ implies.listed)
      · apply mem_branchIds_before wired implies implies.slot _ abovePresent
          token
        exact parent_ne_label wired implies implies.slot
          (label_notMem wired implies)
  | premise here holds =>
      subst holds
      rw [eq_of_slot wired implies (.implication rfl rfl) abovePresent]
        at token
      exact absurd token (show "=>" ≠ "or" by decide)
  | conclusion here holds =>
      subst holds
      rw [eq_of_slot wired implies (.implication rfl rfl) abovePresent]
        at token
      exact absurd token (show "=>" ≠ "or" by decide)
  | adopted node listed found holds =>
      subst holds
      refine ⟨?_, mem_branchIds_of_listed wired implies disjunction listed⟩
      intro same
      subst same
      have up : edited.live? arena.size = some above := by
        rw [← abovePresent]
        exact congrArg edited.live? (if_pos rfl).symm
      rw [eq_of_slot wired implies (.premise rfl rfl) up] at token
      exact absurd token (show "not" ≠ "or" by decide)
  | kept notLabel notListed found =>
      refine ⟨?_, ?_⟩
      · intro same
        exact notListed (same ▸ implies.listed)
      · exact mem_branchIds_before wired implies found
          (parent_ne_label wired implies found notListed) abovePresent token

theorem weight_lt (disjunction : label.token = "or") :
    edited.weight < arena.weight := by
  have nodes := card_liveIds_le wired implies
  have branches := Finset.card_le_card
    (branchIds_subset wired implies disjunction)
  have branchBefore :=
    mem_branchIds_of_listed wired implies disjunction implies.listed
  rw [Finset.card_erase_of_mem branchBefore] at branches
  have positive := Finset.card_pos.mpr ⟨branch, branchBefore⟩
  unfold Arena.weight
  omega

end Implies

end Rule

theorem Record.step_weight_lt {record : Record} {arena next : Arena}
    (rule : record.action = .squashNegation ∨ record.action = .toImplication)
    (wired : arena.Wired) (stepped : record.step arena = .ok (some next)) :
    next.weight < arena.weight := by
  obtain ⟨node, member, outcome, changed, rfl, ran⟩ :=
    Record.step_eq_some stepped
  have live := wired.live_of_mem member
  generalize record.action = action at rule ran
  cases Rule.change_at_live live ran with
  | skip => cases changed
  | cancel negation operands below double innerOperands ran =>
      obtain ⟨edited, rfl, squashes⟩ := Rule.squashes_of_cancel wired live
        operands below innerOperands ran
      rw [Arena.weight_edited]
      exact squashes.weight_lt wired
  | absorb negation operands below opposite ran =>
      obtain ⟨edited, rfl, squashes⟩ := Rule.squashes_of_absorb wired live
        operands below opposite ran
      rw [Arena.weight_edited]
      exact squashes.weight_lt wired
  | imply above isDisjunction ran =>
      obtain ⟨implied, rfl, implies⟩ :=
        Rule.implies_of_imply wired live above isDisjunction ran
      rw [Arena.weight_edited]
      exact implies.weight_lt wired isDisjunction
  | toggle flag => cases flag <;> simp [Flag.toggle] at rule
  | flip | move | replace => simp at rule

theorem Record.step_wired {record : Record} {arena next : Arena}
    (notReplace : record.action ≠ .replace) (wired : arena.Wired)
    (stepped : record.step arena = .ok (some next)) : next.Wired := by
  obtain ⟨node, member, outcome, _, rfl, ran⟩ := Record.step_eq_some stepped
  have live := wired.live_of_mem member
  exact (Rule.edits_of_run wired live notReplace ran).wired wired

/-- The changes of a run are paid from the weight of the arena. -/
theorem Replay.Reaches.add_weight_le {start final : Replay.State}
    {changes : Nat} (reaches : Replay.Reaches start changes final)
    (rules : ∀ record ∈ start.pending,
      record.action = .squashNegation ∨ record.action = .toImplication)
    (wired : start.arena.Wired) :
    changes + final.arena.weight ≤ start.arena.weight := by
  induction reaches with
  | refl => exact Nat.le_of_eq (Nat.zero_add _)
  | @change record rest arena next changes final stepped _ induction =>
      have rule := rules record List.mem_cons_self
      have notReplace : record.action ≠ .replace := by
        rcases rule with same | same <;> simp [same]
      have less : next.weight < arena.weight :=
        Record.step_weight_lt rule wired stepped
      have later : changes + final.arena.weight ≤ next.weight :=
        induction rules (Record.step_wired notReplace wired stepped)
      show changes + 1 + final.arena.weight ≤ arena.weight
      omega
  | settle _ _ induction =>
      exact induction
        (fun record member => rules record (List.mem_cons_of_mem _ member))
        wired

/-- In a checked arena a stack of squashes and implications makes no more
changes than the number of nodes and three times the number of branches
together.  With such a budget its replay is not cut short, and gives what the
run ends with. -/
theorem squashes_and_implications_settle {stack : Stack} {arena : Arena}
    (valid : arena.validate = .ok ())
    (rules : ∀ record ∈ stack.records,
      record.action = .squashNegation ∨ record.action = .toImplication) :
    (∀ changes final, Replay.Reaches (stack.start arena) changes final →
      changes ≤ arena.liveNodes.length + 3 * arena.branches.length) ∧
    ∃ changes outcome, (stack.start arena).EndsAfter changes outcome ∧
      Result.Unlimited outcome ∧
      ∀ budget : Int,
        ((arena.liveNodes.length + 3 * arena.branches.length : Nat) : Int) ≤
          budget →
        stack.replay budget arena = outcome := by
  have wired := (Arena.validate_eq_ok_iff_linked.mp valid).wired
  have bounded : ∀ changes final,
      Replay.Reaches (stack.start arena) changes final →
      changes ≤ arena.liveNodes.length + 3 * arena.branches.length := by
    intro changes final reaches
    have paid : changes + final.arena.weight ≤ arena.weight :=
      reaches.add_weight_le rules wired
    have weight := arena.weight_le
    omega
  refine ⟨bounded, ?_⟩
  rcases (stack.start arena).ends_or_exceeds
      (arena.liveNodes.length + 3 * arena.branches.length) with
    ⟨changes, outcome, enough, ends⟩ | ⟨final, reaches⟩
  · refine ⟨changes, outcome, ends, ends.unlimited, ?_⟩
    intro budget large
    exact ends.runFrom_eq (by omega)
  · exact absurd (bounded _ final reaches) (Nat.not_succ_le_self _)

/-- In `(or (not p) q)` both branches become premises, and then a double
negation is squashed: three changes, where four nodes and two branches allow
ten. -/
theorem squashes_and_implications_settle_or :
    ∃ (stack : Stack) (start result : Arena),
      stack.records.map Record.action = [.toImplication, .squashNegation] ∧
      Arena.ofText "(or (not p) q)" = .ok start ∧
      start.validate = .ok () ∧ start.liveNodes.length = 4 ∧
      start.branches.length = 2 ∧
      result.liveNodes.map Node.token = ["=>", "p", "q", "=>", "not", "or"] ∧
      ∀ budget : Int, 10 ≤ budget →
        stack.replay budget start = .ok result := by
  let stack : Stack :=
    { records := [{ action := .toImplication }, { action := .squashNegation }] }
  have shown : (do
      let start ← Arena.ofText "(or (not p) q)"
      let _ ← start.validate
      let result ← stack.replay (10 : Int) start
      return (start.liveNodes.length, start.branches.length,
        result.liveNodes.map Node.token)).toOption =
        some (4, 2, ["=>", "p", "q", "=>", "not", "or"]) := by
    decide +kernel
  obtain ⟨start, read, rest⟩ :=
    Result.bind_eq_ok_iff.mp (Result.toOption_eq_some_iff.mp shown)
  obtain ⟨_, valid, rest⟩ := Result.bind_eq_ok_iff.mp rest
  obtain ⟨result, replayed, last⟩ := Result.bind_eq_ok_iff.mp rest
  obtain ⟨nodes, branches, tokens⟩ :
      start.liveNodes.length = 4 ∧ start.branches.length = 2 ∧
        result.liveNodes.map Node.token = _ := by
    simpa using Except.ok.inj last
  obtain ⟨_, _, outcome, _, _, same⟩ :=
    @squashes_and_implications_settle stack start valid (by decide)
  rw [nodes, branches] at same
  have result_eq := (same 10 (by decide)).symm.trans replayed
  refine ⟨stack, start, result, rfl, read, valid, nodes, branches, tokens, ?_⟩
  intro budget large
  rw [same budget large, result_eq]

end FormulaEdit
