import FormulaEdit.Proofs.Arena.Validity

/-!
# What the check of an arena means

The check looks at one slot at a time: at the links of a node and at the chain
of its parents.  Here the arena is seen as a whole instead.  One starts at the
root and goes down through the children lists; the arena is a rooted tree when
this leads to every live slot in exactly one way, and nowhere else.

`Arrives` asks nothing of the arena, so a path may lead to a tombstone, outside
the arena or round a cycle.
-/

namespace FormulaEdit.Arena

/-- Going down from the root arrives at an id.  A path gives the position of
each child among its siblings, the last step first. -/
inductive Arrives (arena : Arena) : (path : List Nat) → (id : Int) → Prop where
  | root : Arrives arena [] arena.root
  | child {path : List Nat} {id child : Int} {node : Node} {position : Nat}
      (above : Arrives arena path id) (found : arena.node? id = some node)
      (listed : node.children[position]? = some child) :
      Arrives arena (position :: path) child

/-- The live slots of an arena are a tree below its root. -/
structure RootedTree (arena : Arena) : Prop where
  root : ∃ node, arena.live? arena.root = some node ∧
    node.parent = Node.noParent
  ids : ∀ id node, arena.live? id = some node → node.id = id
  lands : ∀ path id, arena.Arrives path id → ∃ node, arena.live? id = some node
  once : ∀ id node, arena.live? id = some node →
    ∃ path, arena.Arrives path id ∧
      ∀ other, arena.Arrives other id → other = path
  back : ∀ path id node child below, arena.Arrives path id →
    arena.live? id = some node → child ∈ node.children →
    child ≠ arena.root → arena.live? child = some below → below.parent = id

/-! ## From links to paths -/

namespace Linked

variable {arena : Arena} (linked : arena.Linked)
include linked

theorem lands {path : List Nat} {id : Int} (arrives : arena.Arrives path id) :
    ∃ node, arena.live? id = some node := by
  induction arrives with
  | root =>
      obtain ⟨node, live, _⟩ := linked.root
      exact ⟨node, live⟩
  | @child path id child node position above found listed induction =>
      obtain ⟨node', live⟩ := induction
      rw [node?_of_live live] at found
      cases found
      obtain ⟨below, belowLive, _⟩ := linked.children id node live child
        (List.mem_of_getElem? listed)
      exact ⟨below, belowLive⟩

theorem parent_of_arrives {path : List Nat} {id child : Int}
    {node below : Node} {position : Nat} (above : arena.Arrives path id)
    (found : arena.node? id = some node)
    (listed : node.children[position]? = some child)
    (live : arena.live? child = some below) :
    below.parent = id ∧ arena.live? id = some node := by
  obtain ⟨same, sameLive⟩ := linked.lands above
  rw [node?_of_live sameLive] at found
  cases found
  obtain ⟨again, againLive, up⟩ := linked.children id node sameLive child
    (List.mem_of_getElem? listed)
  rw [live] at againLive
  cases againLive
  exact ⟨up, sameLive⟩

theorem exists_path {id : Int} {node : Node}
    (live : arena.live? id = some node) : ∃ path, arena.Arrives path id := by
  obtain ⟨links, climbs⟩ : ∃ links, arena.Climbs node links := by
    obtain ⟨links, _, climbs⟩ := linked.climbs id node live
    exact ⟨links, climbs⟩
  induction climbs generalizing id with
  | root top =>
      rw [linked.oneRoot id _ live top]
      exact ⟨[], .root⟩
  | up parentLive _ induction =>
      obtain ⟨path, arrives⟩ := induction parentLive
      obtain ⟨position, place⟩ :=
        List.mem_iff_getElem?.mp (linked.mem_children live parentLive)
      exact ⟨position :: path, .child arrives (node?_of_live parentLive) place⟩

/-- Two paths to one id go through the same parent, which lists its child at
one position. -/
theorem path_unique {first second : List Nat} {id : Int}
    (arrives : arena.Arrives first id) (again : arena.Arrives second id) :
    first = second := by
  induction arrives generalizing second with
  | root =>
      cases again with
      | root => rfl
      | child above found listed =>
          obtain ⟨root, rootLive, top⟩ := linked.root
          obtain ⟨up, upLive⟩ :=
            linked.parent_of_arrives above found listed rootLive
          exact absurd (up.symm.trans top) (live?_ne_noParent upLive)
  | @child path id child node position above found listed induction =>
      obtain ⟨below, live⟩ := linked.lands (.child above found listed)
      obtain ⟨up, upLive⟩ := linked.parent_of_arrives above found listed live
      cases again with
      | root =>
          obtain ⟨root, rootLive, top⟩ := linked.root
          rw [live] at rootLive
          cases rootLive
          exact absurd (up.symm.trans top) (live?_ne_noParent upLive)
      | child aboveAgain foundAgain listedAgain =>
          obtain ⟨upAgain, _⟩ :=
            linked.parent_of_arrives aboveAgain foundAgain listedAgain live
          rw [← upAgain, up] at aboveAgain foundAgain
          rw [found] at foundAgain
          cases foundAgain
          obtain rfl := induction aboveAgain
          have distinct := linked.nodup_children upLive
          have inside := (List.getElem?_eq_some_iff.mp listed).1
          rw [(List.getElem?_inj inside distinct).mp
            (listed.trans listedAgain.symm)]

theorem rootedTree : arena.RootedTree where
  root := linked.root
  ids := linked.ids
  lands := fun _ _ arrives => linked.lands arrives
  once := by
    intro id node live
    obtain ⟨path, arrives⟩ := linked.exists_path live
    exact ⟨path, arrives, fun other again => linked.path_unique again arrives⟩
  back := by
    intro path id node child below arrives live listed _ belowLive
    obtain ⟨position, place⟩ := List.mem_iff_getElem?.mp listed
    exact (linked.parent_of_arrives arrives (node?_of_live live) place
      belowLive).1

end Linked

/-! ## From paths to links -/

namespace RootedTree

variable {arena : Arena} (tree : arena.RootedTree)
include tree

theorem path_unique {first second : List Nat} {id : Int}
    (arrives : arena.Arrives first id) (again : arena.Arrives second id) :
    first = second := by
  obtain ⟨node, live⟩ := tree.lands first id arrives
  obtain ⟨path, _, only⟩ := tree.once id node live
  rw [only first arrives, only second again]

/-- The root is reached by the empty path only, so no path goes on to it. -/
theorem parent_of_arrives {path : List Nat} {id child : Int}
    {node below : Node} {position : Nat} (arrives : arena.Arrives path id)
    (live : arena.live? id = some node)
    (listed : node.children[position]? = some child)
    (belowLive : arena.live? child = some below) : below.parent = id := by
  refine tree.back path id node child below arrives live
    (List.mem_of_getElem? listed) ?_ belowLive
  rintro rfl
  have paths := tree.path_unique .root
    (.child arrives (node?_of_live live) listed)
  cases paths

theorem exists_step {id : Int} {node : Node}
    (live : arena.live? id = some node) (notRoot : id ≠ arena.root) :
    ∃ parent, arena.live? node.parent = some parent ∧
      id ∈ parent.children := by
  obtain ⟨path, arrives, _⟩ := tree.once id node live
  cases arrives with
  | root => exact absurd rfl notRoot
  | @child path above _ parent position aboveArrives found listed =>
      obtain ⟨same, parentLive⟩ := tree.lands path above aboveArrives
      rw [node?_of_live parentLive] at found
      cases found
      rw [tree.parent_of_arrives aboveArrives parentLive listed live]
      exact ⟨parent, parentLive, List.mem_of_getElem? listed⟩

theorem nodup_children {id : Int} {node : Node}
    (live : arena.live? id = some node) : node.children.Nodup := by
  obtain ⟨path, arrives, _⟩ := tree.once id node live
  rw [List.nodup_iff_getElem?_ne_getElem?]
  intro first second before inside same
  obtain ⟨child, place⟩ : ∃ child, node.children[second]? = some child :=
    ⟨_, List.getElem?_eq_getElem inside⟩
  have found := node?_of_live live
  have paths := tree.path_unique
    (.child arrives found (same.trans place)) (.child arrives found place)
  rw [List.cons.injEq] at paths
  omega

/-- Along a path all ids are distinct: an id that is met again would end two
paths of different lengths. -/
theorem exists_trail {path : List Nat} {id : Int}
    (arrives : arena.Arrives path id) :
    ∃ trail : List Int, trail.length = path.length + 1 ∧ trail.Nodup ∧
      ∀ met ∈ trail, ∃ part, part.length ≤ path.length ∧
        arena.Arrives part met := by
  induction arrives with
  | root =>
      refine ⟨[arena.root], rfl, List.nodup_singleton _, ?_⟩
      intro met member
      rw [List.mem_singleton.mp member]
      exact ⟨[], Nat.le_refl 0, .root⟩
  | @child path id child node position above found listed induction =>
      obtain ⟨trail, length, distinct, parts⟩ := induction
      have arrives : arena.Arrives (position :: path) child :=
        .child above found listed
      refine ⟨child :: trail, by rw [List.length_cons, length]; rfl, ?_, ?_⟩
      · refine List.nodup_cons.mpr ⟨?_, distinct⟩
        intro again
        obtain ⟨part, short, partArrives⟩ := parts child again
        rw [tree.path_unique partArrives arrives] at short
        exact absurd short (Nat.not_succ_le_self _)
      · refine List.forall_mem_cons.mpr ⟨⟨_, Nat.le_refl _, arrives⟩, ?_⟩
        intro met member
        obtain ⟨part, short, partArrives⟩ := parts met member
        exact ⟨part, Nat.le_succ_of_le short, partArrives⟩

theorem length_le_size {path : List Nat} {id : Int}
    (arrives : arena.Arrives path id) : path.length ≤ arena.size := by
  obtain ⟨trail, length, distinct, parts⟩ := tree.exists_trail arrives
  have bound := length_le_size_of_live distinct (by
    intro met member
    obtain ⟨part, _, partArrives⟩ := parts met member
    exact tree.lands part met partArrives)
  omega

theorem climbs {path : List Nat} {id : Int} {node : Node}
    (arrives : arena.Arrives path id) (live : arena.live? id = some node) :
    arena.Climbs node path.length := by
  induction arrives generalizing node with
  | root =>
      obtain ⟨root, rootLive, top⟩ := tree.root
      rw [live] at rootLive
      cases rootLive
      exact .root top
  | @child path above child parent position aboveArrives found listed
      induction =>
      obtain ⟨same, parentLive⟩ := tree.lands path above aboveArrives
      rw [node?_of_live parentLive] at found
      cases found
      have up := tree.parent_of_arrives aboveArrives parentLive listed live
      exact .up (by rw [up]; exact parentLive) (induction parentLive)

theorem linked : arena.Linked where
  root := tree.root
  ids := tree.ids
  oneRoot := by
    intro id node live top
    by_contra notRoot
    obtain ⟨parent, parentLive, _⟩ := tree.exists_step live notRoot
    exact live?_ne_noParent parentLive top
  parents := by
    intro id node live notTop
    have notRoot : id ≠ arena.root := by
      rintro rfl
      obtain ⟨root, rootLive, top⟩ := tree.root
      rw [live] at rootLive
      cases rootLive
      exact notTop top
    obtain ⟨parent, parentLive, listed⟩ := tree.exists_step live notRoot
    exact ⟨parent, parentLive, List.count_eq_one_of_mem
      (tree.nodup_children parentLive) listed⟩
  children := by
    intro id node live child listed
    obtain ⟨path, arrives, _⟩ := tree.once id node live
    obtain ⟨position, place⟩ := List.mem_iff_getElem?.mp listed
    obtain ⟨below, belowLive⟩ := tree.lands _ child
      (.child arrives (node?_of_live live) place)
    exact ⟨below, belowLive,
      tree.parent_of_arrives arrives live place belowLive⟩
  climbs := by
    intro id node live
    obtain ⟨path, arrives, _⟩ := tree.once id node live
    exact ⟨path.length, Nat.le_succ_of_le (tree.length_le_size arrives),
      tree.climbs arrives live⟩

end RootedTree

/-! ## How the check fails -/

/-- A computation that fails, if it does, because of the arena. -/
def FaultsOnly {α : Type} (result : Result α) : Prop :=
  ∀ failure, result = .error failure → ∃ fault, failure = .arena fault

namespace FaultsOnly

variable {α β : Type}

theorem ok (value : α) : FaultsOnly (.ok value : Result α) := by
  intro failure failed
  cases failed

theorem fault (fault : ArenaFault) :
    FaultsOnly (.error (.arena fault) : Result α) := by
  intro failure failed
  cases failed
  exact ⟨fault, rfl⟩

theorem bind {first : Result α} {next : α → Result β}
    (before : FaultsOnly first) (after : ∀ value, FaultsOnly (next value)) :
    FaultsOnly (first >>= next) := by
  intro failure failed
  rcases Result.bind_eq_error_iff.mp failed with early | ⟨value, _, late⟩
  · exact before failure early
  · exact after value failure late

theorem require (condition : Bool) (fault : ArenaFault) :
    FaultsOnly (Arena.require condition fault) := by
  unfold Arena.require
  split
  · exact .ok ()
  · exact .fault fault

variable (arena : Arena)

theorem node (id : Int) : FaultsOnly (arena.node id) := by
  unfold Arena.node
  split
  · exact .ok _
  · exact .fault _

theorem climb (start : Int) (fuel depth : Nat) (node : Node) :
    FaultsOnly (arena.climb start fuel depth node) := by
  induction fuel generalizing depth node with
  | zero =>
      unfold Arena.climb
      split
      · exact .ok _
      · exact .fault _
  | succ fuel induction =>
      unfold Arena.climb
      split
      · exact .ok _
      · apply (FaultsOnly.node arena node.parent).bind
        intro parent
        split
        · exact induction _ _
        · exact .fault _

theorem checkParent (node : Node) : FaultsOnly (arena.checkParent node) := by
  unfold Arena.checkParent
  split
  · exact .require _ _
  · apply (FaultsOnly.node arena node.parent).bind
    intro parent
    exact (FaultsOnly.require _ _).bind fun _ => .require _ _

theorem checkChildren (node : Node) (children : List Int) :
    FaultsOnly (arena.checkChildren node children) := by
  induction children with
  | nil => exact .ok ()
  | cons child children induction =>
      apply (FaultsOnly.node arena child).bind
      intro below
      apply (FaultsOnly.require _ _).bind
      intro _
      exact (FaultsOnly.require _ _).bind fun _ => induction

theorem checkSlot (slot : Nat) (node : Node) :
    FaultsOnly (arena.checkSlot slot node) := by
  unfold Arena.checkSlot
  split
  · apply (FaultsOnly.require _ _).bind
    intro _
    apply (FaultsOnly.checkParent arena node).bind
    intro _
    apply (FaultsOnly.checkChildren arena node node.children).bind
    intro _
    exact (FaultsOnly.climb arena _ _ _ node).bind fun _ => .ok ()
  · exact .ok ()

theorem checkSlots (slot : Nat) (nodes : List Node) :
    FaultsOnly (arena.checkSlots slot nodes) := by
  induction nodes generalizing slot with
  | nil => exact .ok ()
  | cons node nodes induction =>
      exact (FaultsOnly.checkSlot arena slot node).bind fun _ =>
        induction (slot + 1)

theorem validate : FaultsOnly arena.validate := by
  apply (FaultsOnly.node arena arena.root).bind
  intro root
  exact (FaultsOnly.require _ _).bind fun _ => .checkSlots arena _ _

end FaultsOnly

/-- An arena passes the check exactly when its live slots are a tree below its
root, and of exactly the other arenas the check reports a fault. -/
theorem validate_iff_rootedTree (arena : Arena) :
    (arena.validate = .ok () ↔ arena.RootedTree) ∧
      ((∃ fault, arena.validate = .error (.arena fault)) ↔
        ¬arena.RootedTree) := by
  have same : arena.validate = .ok () ↔ arena.RootedTree := by
    rw [validate_eq_ok_iff_linked]
    exact ⟨Linked.rootedTree, RootedTree.linked⟩
  refine ⟨same, ?_⟩
  rw [← same]
  constructor
  · rintro ⟨fault, failed⟩ passed
    rw [failed] at passed
    cases passed
  · intro notPassed
    cases checked : arena.validate with
    | ok => exact absurd checked notPassed
    | error failure =>
        obtain ⟨fault, rfl⟩ := FaultsOnly.validate arena failure checked
        exact ⟨fault, rfl⟩

end FormulaEdit.Arena
