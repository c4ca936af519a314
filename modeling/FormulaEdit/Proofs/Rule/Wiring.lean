import FormulaEdit.Proofs.Arena.Wiring
import FormulaEdit.Proofs.Rule.Imply

/-!
# Edits of wired arenas

The rules change the slots of an arena in three ways: they relabel nodes that
keep their links, hoist a node into the place of a negation above it, or hang
the branches of a disjunction under two new nodes.  Each edit is described by
what it does to live slots, and each keeps an arena wired.
-/

namespace FormulaEdit.Rule

/-- Nodes may change, but not their links, and a new token is an operator. -/
structure Relabels (arena : Arena) (change : Int → Node → Node)
    (edited : Arena) : Prop where
  id : ∀ id node, arena.live? id = some node → (change id node).id = node.id
  parent : ∀ id node, arena.live? id = some node →
    (change id node).parent = node.parent
  children : ∀ id node, arena.live? id = some node →
    (change id node).children.Perm node.children
  token : ∀ id node, arena.live? id = some node →
    (change id node).token = node.token ∨
      Node.isOperator (change id node).token = true
  cleared : edited.Cleared
  root : edited.root = arena.root
  size : edited.size = arena.size
  slots : ∀ id, edited.live? id = (arena.live? id).map (change id)

/-- A slot after the node `heir` was hung into the place of `old`. -/
def rehung (old : Node) (heir : Int) (children : List Int) (id : Int)
    (node : Node) : Node :=
  if id = heir then { node with parent := old.parent }
  else if id = old.parent then { node with children := children }
  else node

theorem rehung_id (old : Node) (heir : Int) (children : List Int) (id : Int)
    (node : Node) : (rehung old heir children id node).id = node.id := by
  unfold rehung
  split
  · rfl
  · split <;> rfl

theorem rehung_heir (old : Node) (heir : Int) (children : List Int)
    (node : Node) : rehung old heir children heir node =
      { node with parent := old.parent } :=
  if_pos rfl

theorem rehung_parent {old : Node} {heir id : Int} (other : id ≠ heir)
    (children : List Int) (node : Node) :
    (rehung old heir children id node).parent = node.parent := by
  rw [rehung, if_neg other]
  split <;> rfl

theorem rehung_token (old : Node) (heir : Int) (children : List Int)
    (id : Int) (node : Node) :
    (rehung old heir children id node).token = node.token := by
  unfold rehung
  split
  · rfl
  · split <;> rfl

/-- A node takes the place of one above it, and those from there down to the
parent of the node are buried. -/
structure Hoists (arena : Arena) (old heir : Node)
    (buried children : List Int) (edited : Arena) : Prop where
  oldLive : arena.live? old.id = some old
  heirLive : arena.live? heir.id = some heir
  oldBuried : old.id ∈ buried
  heirBelow : heir.parent ∈ buried
  heirKept : heir.id ∉ buried
  between : ∀ id ∈ buried, id = old.id ∨
    ∃ node, arena.live? id = some node ∧ node.parent ∈ buried
  lower : ∀ height, arena.Falls height → height heir.id < height old.id
  replaced : ∀ parent, arena.live? old.parent = some parent →
    ∃ before after, parent.children = before ++ old.id :: after ∧
      children = before ++ heir.id :: after
  cleared : edited.Cleared
  root : edited.root =
    if old.parent = Node.noParent then heir.id else arena.root
  size : edited.size = arena.size
  slots : ∀ id, edited.live? id =
    if id ∈ buried then none
    else (arena.live? id).map (rehung old heir.id children id)

/-- A branch of a disjunction became a premise. -/
structure Implies (arena : Arena) (label : Label) (parent branch : Int)
    (children : List Int) (edited : Arena) : Prop where
  slot : arena.live? label.id = some (label.node parent children)
  listed : branch ∈ children
  cleared : edited.Cleared
  root : edited.root = arena.root
  slots : ∀ id, edited.live? id = implySlots arena label parent branch
    (children.filter (· != branch)) id

theorem branches_of_wired {arena : Arena} (wired : arena.Wired) {focus : Int}
    {node parent : Node} (live : arena.live? focus = some node)
    (parentLive : arena.live? node.parent = some parent) :
    Branches arena (Label.ofNode parent) parent.parent focus parent.children
      (parent.children.filter (· != focus)) := by
  have slot : arena.live? (Label.ofNode parent).id =
      some ((Label.ofNode parent).node parent.parent parent.children) := by
    show arena.live? parent.id = some parent
    rw [wired.ids _ parent parentLive]
    exact parentLive
  have notChild : ∀ child ∈ parent.children,
      (Label.ofNode parent).id ≠ child :=
    fun child member => (wired.ne_of_listed slot member).symm
  have listed := wired.listed focus node parent live parentLive
  refine
    { slot := slot
      branchLive := ⟨node, live⟩
      othersLive := ?_
      filtered := rfl
      notBranch := notChild focus listed
      notOther := ?_ }
  · intro id member
    obtain ⟨below, belowLive, _⟩ := wired.children _ parent parentLive id
      (List.mem_of_mem_filter member)
    exact ⟨below, belowLive⟩
  · intro member
    exact notChild _ (List.mem_of_mem_filter member) rfl

namespace Relabels

variable {arena edited : Arena} {change : Int → Node → Node}

theorem exists_before (relabels : Relabels arena change edited) {id : Int}
    {after : Node} (live : edited.live? id = some after) :
    ∃ node, arena.live? id = some node ∧ after = change id node := by
  rw [relabels.slots] at live
  obtain ⟨node, found, same⟩ := Option.map_eq_some_iff.mp live
  exact ⟨node, found, same.symm⟩

theorem live (relabels : Relabels arena change edited) {id : Int}
    {node : Node} (live : arena.live? id = some node) :
    edited.live? id = some (change id node) := by
  rw [relabels.slots, live, Option.map_some]

theorem wired (relabels : Relabels arena change edited)
    (wired : arena.Wired) : edited.Wired := by
  refine
    { cleared := relabels.cleared
      root := ?_
      ids := ?_
      oneRoot := ?_
      inside := ?_
      listed := ?_
      children := ?_
      once := ?_
      grounded := ?_ }
  · obtain ⟨node, found, top⟩ := wired.root
    refine ⟨change arena.root node, ?_, ?_⟩
    · rw [relabels.root]
      exact relabels.live found
    · rw [relabels.parent _ _ found, top]
  · intro id after present
    obtain ⟨node, found, rfl⟩ := relabels.exists_before present
    rw [relabels.id id node found]
    exact wired.ids id node found
  · intro id after present top
    obtain ⟨node, found, rfl⟩ := relabels.exists_before present
    rw [relabels.parent id node found] at top
    rw [relabels.root]
    exact wired.oneRoot id node found top
  · intro id after present
    obtain ⟨node, found, rfl⟩ := relabels.exists_before present
    rw [relabels.parent id node found, relabels.size]
    exact wired.inside id node found
  · intro id after above present abovePresent
    obtain ⟨node, found, rfl⟩ := relabels.exists_before present
    rw [relabels.parent id node found] at abovePresent
    obtain ⟨parent, parentFound, rfl⟩ := relabels.exists_before abovePresent
    have same := relabels.children _ parent parentFound
    exact same.mem_iff.mpr (wired.listed id node parent found parentFound)
  · intro id after present child member
    obtain ⟨node, found, rfl⟩ := relabels.exists_before present
    have listed := (relabels.children id node found).mem_iff.mp member
    obtain ⟨below, belowFound, up⟩ := wired.children id node found child listed
    refine ⟨_, relabels.live belowFound, ?_⟩
    rw [relabels.parent child below belowFound, up]
  · intro id after present
    obtain ⟨node, found, rfl⟩ := relabels.exists_before present
    exact (relabels.children id node found).nodup_iff.mpr
      (wired.once id node found)
  · obtain ⟨height, falls⟩ := wired.grounded
    refine ⟨height, ?_⟩
    intro id after present child member
    obtain ⟨node, found, rfl⟩ := relabels.exists_before present
    exact falls id node found child
      ((relabels.children id node found).mem_iff.mp member)

end Relabels

namespace Hoists

variable {arena edited : Arena} {old heir : Node}
  {buried children : List Int}

theorem exists_before (hoists : Hoists arena old heir buried children edited)
    {id : Int} {after : Node} (live : edited.live? id = some after) :
    id ∉ buried ∧ ∃ node, arena.live? id = some node ∧
      after = rehung old heir.id children id node := by
  rw [hoists.slots] at live
  split at live
  · cases live
  next kept =>
    obtain ⟨node, found, same⟩ := Option.map_eq_some_iff.mp live
    exact ⟨kept, node, found, same.symm⟩

theorem live (hoists : Hoists arena old heir buried children edited)
    {id : Int} {node : Node} (live : arena.live? id = some node)
    (kept : id ∉ buried) :
    edited.live? id = some (rehung old heir.id children id node) := by
  rw [hoists.slots, if_neg kept, live, Option.map_some]

theorem noParent_notMem
    (hoists : Hoists arena old heir buried children edited) :
    Node.noParent ∉ buried := by
  intro member
  rcases hoists.between _ member with same | ⟨node, found, _⟩
  · exact Arena.live?_ne_noParent hoists.oldLive same.symm
  · exact Arena.live?_ne_noParent found rfl

/-- A node that stays lists no buried node but the old one. -/
theorem child_kept (hoists : Hoists arena old heir buried children edited)
    {id : Int} (kept : id ∉ buried) {child : Int} {below : Node}
    (found : arena.live? child = some below) (up : below.parent = id)
    (notOld : child ≠ old.id) : child ∉ buried ∧ child ≠ heir.id := by
  constructor
  · intro member
    rcases hoists.between child member with same | ⟨node, again, above⟩
    · exact notOld same
    · rw [found] at again
      cases again
      rw [up] at above
      exact kept above
  · intro same
    rw [same, hoists.heirLive] at found
    cases found
    rw [← up] at kept
    exact kept hoists.heirBelow

variable (wired : arena.Wired)
include wired

theorem heir_ne_parent
    (hoists : Hoists arena old heir buried children edited) :
    heir.id ≠ old.parent :=
  wired.ne_parent_of_lower hoists.oldLive hoists.heirLive hoists.lower

/-- The children of a node that stays are its old ones, with the heir in the
place of the old node. -/
theorem child_cases (hoists : Hoists arena old heir buried children edited)
    {id : Int} {node : Node} (found : arena.live? id = some node)
    {child : Int} (member : child ∈ (rehung old heir.id children id node).children) :
    child = heir.id ∧ id = old.parent ∨
      child ∈ node.children ∧ child ≠ old.id := by
  obtain ⟨height, falls⟩ := wired.grounded
  unfold rehung at member
  by_cases isHeir : id = heir.id
  · rw [if_pos isHeir] at member
    refine .inr ⟨member, ?_⟩
    intro same
    have lower := hoists.lower height falls
    have higher := falls id node found child member
    rw [isHeir, same] at higher
    omega
  · rw [if_neg isHeir] at member
    by_cases isParent : id = old.parent
    · rw [if_pos isParent] at member
      obtain ⟨before, after, was, now⟩ :=
        hoists.replaced node (by rw [← isParent]; exact found)
      have once := wired.once id node found
      have inside : child ∈ before ++ heir.id :: after := now ▸ member
      rw [was, List.nodup_append, List.nodup_cons] at once
      rw [was]
      obtain ⟨_, ⟨notAfter, _⟩, notBefore⟩ := once
      rcases List.mem_append.mp inside with first | rest
      · refine .inr ⟨List.mem_append_left _ first, ?_⟩
        exact notBefore child first old.id List.mem_cons_self
      · rcases List.mem_cons.mp rest with isHeir | last
        · exact .inl ⟨isHeir, isParent⟩
        · refine .inr ⟨List.mem_append_right _
            (List.mem_cons_of_mem _ last), ?_⟩
          intro same
          exact notAfter (same ▸ last)
    · rw [if_neg isParent] at member
      refine .inr ⟨member, ?_⟩
      intro same
      obtain ⟨below, belowFound, up⟩ := wired.children id node found child member
      rw [same, hoists.oldLive] at belowFound
      cases belowFound
      exact isParent up.symm

theorem listed (hoists : Hoists arena old heir buried children edited)
    {id : Int} {after above : Node} (present : edited.live? id = some after)
    (abovePresent : edited.live? after.parent = some above) :
    id ∈ above.children := by
  obtain ⟨kept, node, found, rfl⟩ := hoists.exists_before present
  by_cases isHeir : id = heir.id
  · subst isHeir
    rw [rehung_heir] at abovePresent
    obtain ⟨_, parent, parentFound, rfl⟩ :=
      hoists.exists_before abovePresent
    obtain ⟨before, after, _, now⟩ := hoists.replaced parent parentFound
    rw [rehung, if_neg (hoists.heir_ne_parent wired).symm, if_pos rfl, now]
    exact List.mem_append_right _ List.mem_cons_self
  · rw [rehung_parent isHeir] at abovePresent
    obtain ⟨_, parent, parentFound, rfl⟩ :=
      hoists.exists_before abovePresent
    have member := wired.listed id node parent found parentFound
    unfold rehung
    split
    · exact member
    · split
      next isParent =>
        rw [isParent] at parentFound
        obtain ⟨before, after, was, now⟩ := hoists.replaced parent parentFound
        have notOld : id ≠ old.id := by
          intro same
          exact kept (same ▸ hoists.oldBuried)
        rw [was, List.mem_append, List.mem_cons] at member
        rw [now, List.mem_append, List.mem_cons]
        rcases member with first | same | last
        · exact .inl first
        · exact absurd same notOld
        · exact .inr (.inr last)
      next => exact member

theorem children_back (hoists : Hoists arena old heir buried children edited)
    {id : Int} {after : Node} (present : edited.live? id = some after)
    {child : Int} (member : child ∈ after.children) :
    ∃ below, edited.live? child = some below ∧ below.parent = id := by
  obtain ⟨kept, node, found, rfl⟩ := hoists.exists_before present
  rcases hoists.child_cases wired found member with
    ⟨rfl, isParent⟩ | ⟨listed, notOld⟩
  · refine ⟨_, hoists.live hoists.heirLive hoists.heirKept, ?_⟩
    rw [rehung_heir, isParent]
  · obtain ⟨below, belowFound, up⟩ :=
      wired.children id node found child listed
    obtain ⟨childKept, notHeir⟩ :=
      hoists.child_kept kept belowFound up notOld
    refine ⟨_, hoists.live belowFound childKept, ?_⟩
    rw [rehung_parent notHeir, up]

theorem once (hoists : Hoists arena old heir buried children edited)
    {id : Int} {after : Node} (present : edited.live? id = some after) :
    after.children.Nodup := by
  obtain ⟨kept, node, found, rfl⟩ := hoists.exists_before present
  have nodup := wired.once id node found
  unfold rehung
  split
  · exact nodup
  · split
    next isParent =>
      obtain ⟨before, after, was, now⟩ :=
        hoists.replaced node (by rw [← isParent]; exact found)
      -- The heir hung elsewhere before, so it is not listed twice now.
      have absent : heir.id ∉ node.children := by
        intro member
        obtain ⟨below, belowFound, up⟩ :=
          wired.children id node found heir.id member
        rw [hoists.heirLive] at belowFound
        cases belowFound
        rw [← up] at kept
        exact kept hoists.heirBelow
      rw [was] at nodup absent
      show children.Nodup
      rw [now]
      grind
    next => exact nodup

theorem root_edited
    (hoists : Hoists arena old heir buried children edited) :
    ∃ node, edited.live? edited.root = some node ∧
      node.parent = Node.noParent := by
  rw [hoists.root]
  split
  next top =>
    refine ⟨_, hoists.live hoists.heirLive hoists.heirKept, ?_⟩
    rw [rehung_heir, top]
  next notTop =>
    obtain ⟨root, found, top⟩ := wired.root
    have absent := hoists.noParent_notMem
    have kept : arena.root ∉ buried := by
      intro member
      rcases hoists.between _ member with same | ⟨node, again, above⟩
      · rw [same, hoists.oldLive] at found
        cases found
        exact notTop top
      · rw [found] at again
        cases again
        rw [top] at above
        exact absent above
    have notHeir : arena.root ≠ heir.id := by
      intro same
      rw [same, hoists.heirLive] at found
      cases found
      exact absent (top ▸ hoists.heirBelow)
    refine ⟨_, hoists.live found kept, ?_⟩
    rw [rehung_parent notHeir, top]

theorem oneRoot_edited
    (hoists : Hoists arena old heir buried children edited) {id : Int}
    {after : Node} (present : edited.live? id = some after)
    (top : after.parent = Node.noParent) : id = edited.root := by
  obtain ⟨kept, node, found, rfl⟩ := hoists.exists_before present
  rw [hoists.root]
  by_cases isHeir : id = heir.id
  · subst isHeir
    rw [rehung_heir] at top
    exact (if_pos top).symm
  · rw [rehung_parent isHeir] at top
    have isRoot := wired.oneRoot id node found top
    have notTop : old.parent ≠ Node.noParent := by
      intro oldTop
      have same := wired.oneRoot _ old hoists.oldLive oldTop
      rw [isRoot, ← same] at kept
      exact kept hoists.oldBuried
    rw [if_neg notTop, isRoot]

theorem inside_edited
    (hoists : Hoists arena old heir buried children edited) {id : Int}
    {after : Node} (present : edited.live? id = some after) :
    after.parent < edited.size := by
  obtain ⟨_, node, found, rfl⟩ := hoists.exists_before present
  rw [hoists.size]
  by_cases isHeir : id = heir.id
  · subst isHeir
    rw [rehung_heir]
    exact wired.inside _ old hoists.oldLive
  · rw [rehung_parent isHeir]
    exact wired.inside id node found

theorem grounded_edited
    (hoists : Hoists arena old heir buried children edited) :
    ∃ height, edited.Falls height := by
  obtain ⟨height, falls⟩ := wired.grounded
  refine ⟨height, ?_⟩
  intro id after present child member
  obtain ⟨_, node, found, rfl⟩ := hoists.exists_before present
  rcases hoists.child_cases wired found member with
    ⟨rfl, isParent⟩ | ⟨listed, _⟩
  · have lower := hoists.lower height falls
    rw [isParent] at found
    have oldListed := wired.listed _ old node hoists.oldLive found
    have higher := falls _ node found _ oldListed
    rw [isParent]
    omega
  · exact falls id node found child listed

theorem wired_edited
    (hoists : Hoists arena old heir buried children edited) :
    edited.Wired := by
  refine
    { cleared := hoists.cleared
      root := hoists.root_edited wired
      ids := ?_
      oneRoot := fun _ _ => hoists.oneRoot_edited wired
      inside := fun _ _ => hoists.inside_edited wired
      listed := fun _ _ _ => hoists.listed wired
      children := fun _ _ present _ => hoists.children_back wired present
      once := fun _ _ => hoists.once wired
      grounded := hoists.grounded_edited wired }
  intro id after present
  obtain ⟨_, node, found, rfl⟩ := hoists.exists_before present
  rw [rehung_id]
  exact wired.ids id node found

end Hoists

namespace Implies

variable {arena edited : Arena} {label : Label} {parent branch : Int}
  {children : List Int}

/-- The new parent of a branch. -/
def adopter (arena : Arena) (branch id : Int) : Int :=
  if id = branch then arena.size else ((arena.size + 1 : Nat) : Int)

/-- What a live slot holds after a branch became a premise. -/
inductive Slot (arena : Arena) (label : Label) (parent branch : Int)
    (children : List Int) (id : Int) (after : Node) : Prop where
  | implication (here : id = label.id)
      (holds : after = { label with token := "=>" }.node parent
        [(arena.size : Int), ((arena.size + 1 : Nat) : Int)])
  | premise (here : id = arena.size)
      (holds : after = (Tree.added arena.size "not").node label.id [branch])
  | conclusion (here : id = ((arena.size + 1 : Nat) : Int))
      (holds : after = (Tree.added (arena.size + 1) "or").node label.id
        (children.filter (· != branch)))
  | adopted (node : Node) (listed : id ∈ children)
      (found : arena.live? id = some node)
      (holds : after = { node with parent := adopter arena branch id })
  | kept (notLabel : id ≠ label.id) (notListed : id ∉ children)
      (found : arena.live? id = some after)

theorem mem_others {id : Int} :
    id ∈ children.filter (· != branch) ↔ id ∈ children ∧ id ≠ branch := by
  rw [List.mem_filter, bne_iff_ne]

section Links

variable (wired : arena.Wired)
  (implies : Implies arena label parent branch children edited)
include wired implies

theorem child_back {child : Int} (listed : child ∈ children) :
    ∃ below, arena.live? child = some below ∧ below.parent = label.id :=
  wired.children _ _ implies.slot child listed

theorem label_notMem : label.id ∉ children := by
  intro listed
  exact wired.ne_of_listed implies.slot listed rfl

theorem child_lt {child : Int} (listed : child ∈ children) :
    child < arena.size := by
  obtain ⟨below, found, _⟩ := child_back wired implies listed
  exact (Arena.live?_bounds found).2

theorem slot_iff {id : Int} {after : Node} :
    edited.live? id = some after ↔
      Slot arena label parent branch children id after := by
  have labelBound := (Arena.live?_bounds implies.slot).2
  rw [implies.slots]
  unfold implySlots
  constructor
  · intro present
    split at present
    next same => exact .implication same (Option.some.inj present).symm
    next notLabel =>
    split at present
    next same => exact .premise same (Option.some.inj present).symm
    next =>
    split at present
    next same => exact .conclusion same (Option.some.inj present).symm
    next =>
    split at present
    next isBranch =>
      obtain ⟨node, found, same⟩ := Option.map_eq_some_iff.mp present
      refine .adopted node (isBranch ▸ implies.listed) found ?_
      rw [adopter, if_pos isBranch, same]
    next notBranch =>
    split at present
    next other =>
      obtain ⟨node, found, same⟩ := Option.map_eq_some_iff.mp present
      refine .adopted node (mem_others.mp other).1 found ?_
      rw [adopter, if_neg notBranch, same]
    next notOther =>
      refine .kept notLabel ?_ present
      intro listed
      exact notOther (mem_others.mpr ⟨listed, notBranch⟩)
  · intro slot
    cases slot with
    | implication here holds => rw [if_pos here, holds]
    | premise here holds => rw [if_neg (by omega), if_pos here, holds]
    | conclusion here holds =>
        rw [if_neg (by omega), if_neg (by omega), if_pos here, holds]
    | adopted node listed found holds =>
        have below := child_lt wired implies listed
        have notLabel : id ≠ label.id := by
          intro same
          exact label_notMem wired implies (same ▸ listed)
        rw [if_neg notLabel, if_neg (by omega), if_neg (by omega), holds,
          adopter]
        by_cases isBranch : id = branch
        · rw [if_pos isBranch, if_pos isBranch, found, Option.map_some]
        · rw [if_neg isBranch, if_neg isBranch,
            if_pos (mem_others.mpr ⟨listed, isBranch⟩), found,
            Option.map_some]
    | kept notLabel notListed found =>
        have below := (Arena.live?_bounds found).2
        have notBranch : id ≠ branch := by
          intro same
          exact notListed (same ▸ implies.listed)
        have notOther : id ∉ children.filter (· != branch) := by
          intro member
          exact notListed (mem_others.mp member).1
        rw [if_neg notLabel, if_neg (by omega), if_neg (by omega),
          if_neg notBranch, if_neg notOther, found]

theorem eq_of_slot {id : Int} {node after : Node}
    (slot : Slot arena label parent branch children id node)
    (present : edited.live? id = some after) : after = node := by
  rw [(slot_iff wired implies).mpr slot] at present
  exact (Option.some.inj present).symm

theorem size_le : arena.size + 2 ≤ edited.size := by
  have last : edited.live? ((arena.size + 1 : Nat) : Int) = some _ :=
    (slot_iff wired implies).mpr (.conclusion rfl rfl)
  have bound := (Arena.live?_bounds last).2
  omega

theorem parent_ne_label {id : Int} {node : Node}
    (found : arena.live? id = some node) (notListed : id ∉ children) :
    node.parent ≠ label.id := by
  intro same
  apply notListed
  exact wired.listed id node _ found (by rw [same]; exact implies.slot)

/-- A node that was live is listed by its old parent, if that is no
disjunction of branches. -/
theorem listed_before {id : Int} {node above : Node}
    (found : arena.live? id = some node)
    (elsewhere : node.parent ≠ label.id)
    (present : edited.live? node.parent = some above) :
    id ∈ above.children := by
  have bound := wired.inside id node found
  cases (slot_iff wired implies).mp present with
  | implication here holds => exact absurd here elsewhere
  | premise here holds => omega
  | conclusion here holds => omega
  | adopted parent listed parentFound holds =>
      rw [holds]
      exact wired.listed id node parent found parentFound
  | kept notLabel notListed parentFound =>
      exact wired.listed id node above found parentFound

theorem listed_edited {id : Int} {after above : Node}
    (present : edited.live? id = some after)
    (abovePresent : edited.live? after.parent = some above) :
    id ∈ above.children := by
  cases (slot_iff wired implies).mp present with
  | implication here holds =>
      subst here holds
      refine listed_before wired implies implies.slot ?_ abovePresent
      exact parent_ne_label wired implies implies.slot
        (label_notMem wired implies)
  | premise here holds =>
      subst here holds
      rw [eq_of_slot wired implies (.implication rfl rfl) abovePresent]
      exact List.mem_cons_self
  | conclusion here holds =>
      subst here holds
      rw [eq_of_slot wired implies (.implication rfl rfl) abovePresent]
      exact List.mem_cons_of_mem _ List.mem_cons_self
  | adopted node listed found holds =>
      subst holds
      have up : edited.live? (adopter arena branch id) = some above :=
        abovePresent
      unfold adopter at up
      by_cases isBranch : id = branch
      · rw [if_pos isBranch] at up
        rw [eq_of_slot wired implies (.premise rfl rfl) up, isBranch]
        exact List.mem_cons_self
      · rw [if_neg isBranch] at up
        rw [eq_of_slot wired implies (.conclusion rfl rfl) up]
        exact mem_others.mpr ⟨listed, isBranch⟩
  | kept notLabel notListed found =>
      exact listed_before wired implies found
        (parent_ne_label wired implies found notListed) abovePresent

theorem child_edited {id : Int} {node : Node}
    (found : arena.live? id = some node) (notLabel : id ≠ label.id)
    {child : Int} (member : child ∈ node.children) :
    ∃ below, edited.live? child = some below ∧ below.parent = id := by
  obtain ⟨below, belowFound, up⟩ := wired.children id node found child member
  have notListed : child ∉ children := by
    intro listed
    obtain ⟨again, againFound, otherUp⟩ := child_back wired implies listed
    rw [belowFound] at againFound
    cases againFound
    exact notLabel (up.symm.trans otherUp)
  by_cases isLabel : child = label.id
  · refine ⟨_, (slot_iff wired implies).mpr (.implication isLabel rfl), ?_⟩
    rw [isLabel, implies.slot] at belowFound
    cases belowFound
    exact up
  · exact ⟨below, (slot_iff wired implies).mpr
      (.kept isLabel notListed belowFound), up⟩

theorem children_edited {id : Int} {after : Node}
    (present : edited.live? id = some after) {child : Int}
    (member : child ∈ after.children) :
    ∃ below, edited.live? child = some below ∧ below.parent = id := by
  cases (slot_iff wired implies).mp present with
  | implication here holds =>
      subst here holds
      rcases List.mem_cons.mp member with first | rest
      · exact ⟨_, (slot_iff wired implies).mpr (.premise first rfl), rfl⟩
      · have second := List.mem_singleton.mp rest
        exact ⟨_, (slot_iff wired implies).mpr (.conclusion second rfl), rfl⟩
  | premise here holds =>
      subst here holds
      have isBranch := List.mem_singleton.mp member
      subst isBranch
      obtain ⟨below, found, _⟩ := child_back wired implies implies.listed
      exact ⟨_, (slot_iff wired implies).mpr
        (.adopted below implies.listed found rfl), if_pos rfl⟩
  | conclusion here holds =>
      subst here holds
      obtain ⟨listed, notBranch⟩ := mem_others.mp member
      obtain ⟨below, found, _⟩ := child_back wired implies listed
      exact ⟨_, (slot_iff wired implies).mpr
        (.adopted below listed found rfl), if_neg notBranch⟩
  | adopted node listed found holds =>
      subst holds
      refine child_edited wired implies found ?_ member
      intro same
      exact label_notMem wired implies (same ▸ listed)
  | kept notLabel notListed found =>
      exact child_edited wired implies found notLabel member

/-- Heights are doubled, which leaves room for the two new nodes. -/
theorem grounded_edited : ∃ height, edited.Falls height := by
  obtain ⟨height, falls⟩ := wired.grounded
  have labelBound := (Arena.live?_bounds implies.slot).2
  have childFalls := falls _ _ implies.slot
  let raised (id : Int) : Nat :=
    if id < arena.size then 2 * height id else 2 * height label.id - 1
  have old : ∀ {id : Int}, id < arena.size → raised id = 2 * height id :=
    fun below => if_pos below
  have new : ∀ {id : Int}, ¬id < arena.size →
      raised id = 2 * height label.id - 1 := fun above => if_neg above
  have oldFalls : ∀ {id : Int} {node : Node},
      arena.live? id = some node → ∀ child ∈ node.children,
        raised child < raised id := by
    intro id node found child member
    obtain ⟨below, belowFound, _⟩ := wired.children id node found child member
    rw [old (Arena.live?_bounds found).2,
      old (Arena.live?_bounds belowFound).2]
    have lower := falls id node found child member
    omega
  have branchLower := childFalls branch implies.listed
  refine ⟨raised, ?_⟩
  intro id after present child member
  cases (slot_iff wired implies).mp present with
  | implication here holds =>
      subst here holds
      have isNew : ¬child < arena.size := by
        rcases List.mem_cons.mp member with first | rest
        · omega
        · have second := List.mem_singleton.mp rest
          omega
      rw [new isNew, old labelBound]
      omega
  | premise here holds =>
      subst here holds
      have isBranch := List.mem_singleton.mp member
      subst isBranch
      rw [new (Int.lt_irrefl _), old (child_lt wired implies implies.listed)]
      omega
  | conclusion here holds =>
      subst here holds
      have listed := (mem_others.mp member).1
      have lower := childFalls child listed
      rw [old (child_lt wired implies listed), new (by omega)]
      omega
  | adopted node listed found holds =>
      subst holds
      exact oldFalls found child member
  | kept notLabel notListed found => exact oldFalls found child member

theorem root_edited : ∃ node, edited.live? edited.root = some node ∧
    node.parent = Node.noParent := by
  rw [implies.root]
  obtain ⟨node, found, top⟩ := wired.root
  by_cases isLabel : arena.root = label.id
  · refine ⟨_, (slot_iff wired implies).mpr (.implication isLabel rfl), ?_⟩
    rw [isLabel, implies.slot] at found
    cases found
    exact top
  · have notListed : arena.root ∉ children := by
      intro listed
      obtain ⟨again, againFound, up⟩ := child_back wired implies listed
      rw [found] at againFound
      cases againFound
      rw [top] at up
      exact Arena.live?_ne_noParent implies.slot up.symm
    exact ⟨node, (slot_iff wired implies).mpr
      (.kept isLabel notListed found), top⟩

theorem oneRoot_edited {id : Int} {after : Node}
    (present : edited.live? id = some after)
    (top : after.parent = Node.noParent) : id = edited.root := by
  have labelNotTop := Arena.live?_ne_noParent implies.slot
  rw [implies.root]
  cases (slot_iff wired implies).mp present with
  | implication here holds =>
      subst here holds
      exact wired.oneRoot _ _ implies.slot top
  | premise here holds =>
      subst holds
      exact absurd top labelNotTop
  | conclusion here holds =>
      subst holds
      exact absurd top labelNotTop
  | adopted node listed found holds =>
      subst holds
      have above : 0 ≤ adopter arena branch id := by
        unfold adopter
        split <;> omega
      have below : adopter arena branch id = -1 := top
      omega
  | kept notLabel notListed found => exact wired.oneRoot id after found top

theorem inside_edited {id : Int} {after : Node}
    (present : edited.live? id = some after) : after.parent < edited.size := by
  have size := size_le wired implies
  have labelBound := (Arena.live?_bounds implies.slot).2
  cases (slot_iff wired implies).mp present with
  | implication here holds =>
      have bound := wired.inside _ _ implies.slot
      rw [holds]
      rw [Label.parent_node] at bound ⊢
      omega
  | premise here holds =>
      rw [holds, Label.parent_node]
      omega
  | conclusion here holds =>
      rw [holds, Label.parent_node]
      omega
  | adopted node listed found holds =>
      have bound : adopter arena branch id ≤ arena.size + 1 := by
        unfold adopter
        split <;> omega
      rw [holds]
      show adopter arena branch id < edited.size
      omega
  | kept notLabel notListed found =>
      have bound := wired.inside id after found
      omega

theorem once_edited {id : Int} {after : Node}
    (present : edited.live? id = some after) : after.children.Nodup := by
  cases (slot_iff wired implies).mp present with
  | implication here holds =>
      have apart : (arena.size : Int) ∉
          [((arena.size + 1 : Nat) : Int)] := by
        rw [List.mem_singleton]
        omega
      rw [holds, Label.children_node]
      exact List.nodup_cons.mpr ⟨apart, List.nodup_singleton _⟩
  | premise here holds =>
      rw [holds, Label.children_node]
      exact List.nodup_singleton branch
  | conclusion here holds =>
      have once := wired.once _ _ implies.slot
      rw [Label.children_node] at once
      rw [holds, Label.children_node]
      exact once.filter _
  | adopted node listed found holds =>
      rw [holds]
      exact wired.once id node found
  | kept notLabel notListed found => exact wired.once id after found

theorem wired_edited : edited.Wired := by
  refine
    { cleared := implies.cleared
      root := root_edited wired implies
      ids := ?_
      oneRoot := fun _ _ => oneRoot_edited wired implies
      inside := fun _ _ => inside_edited wired implies
      listed := fun _ _ _ => listed_edited wired implies
      children := fun _ _ present _ => children_edited wired implies present
      once := fun _ _ => once_edited wired implies
      grounded := grounded_edited wired implies }
  intro id after present
  cases (slot_iff wired implies).mp present with
  | implication here holds => rw [here, holds]; rfl
  | premise here holds => rw [here, holds]; rfl
  | conclusion here holds => rw [here, holds]; rfl
  | adopted node listed found holds =>
      rw [holds]
      exact wired.ids id node found
  | kept notLabel notListed found => exact wired.ids id after found

end Links

end Implies

end FormulaEdit.Rule
