import FormulaEdit.Proofs.Arena.Build

/-!
# Wired arenas

Squashing a negation with several operands leaves live nodes below tombstones,
and rules may be applied to them as well.  A `Wired` arena may hold such
orphans: it is what the check establishes, except that the parent of a live
node may be dead.  From its root a wired arena still unfolds to a tree.
-/

namespace FormulaEdit.Arena

/-- A height falls from every live node to its children. -/
def Falls (arena : Arena) (height : Int → Nat) : Prop :=
  ∀ id node, arena.live? id = some node →
    ∀ child ∈ node.children, height child < height id

/-- Live slots know their ids, children point back to the one node that lists
them, and no node lies below itself.  A parent may be dead. -/
structure Wired (arena : Arena) : Prop where
  cleared : arena.Cleared
  root : ∃ node, arena.live? arena.root = some node ∧
    node.parent = Node.noParent
  ids : ∀ id node, arena.live? id = some node → node.id = id
  oneRoot : ∀ id node, arena.live? id = some node →
    node.parent = Node.noParent → id = arena.root
  inside : ∀ id node, arena.live? id = some node → node.parent < arena.size
  listed : ∀ id node parent, arena.live? id = some node →
    arena.live? node.parent = some parent → id ∈ parent.children
  children : ∀ id node, arena.live? id = some node →
    ∀ child ∈ node.children,
      ∃ below, arena.live? child = some below ∧ below.parent = id
  once : ∀ id node, arena.live? id = some node → node.children.Nodup
  grounded : ∃ height, arena.Falls height

namespace Wired

variable {arena : Arena}

theorem exists_holds (wired : arena.Wired) {height : Int → Nat}
    (falls : arena.Falls height) (bound : Nat) {id : Int} {node : Node}
    (live : arena.live? id = some node) (low : height id < bound) :
    ∃ tree : Tree, tree.id = id ∧ arena.Holds node.parent tree := by
  induction bound generalizing id node with
  | zero => exact absurd low (Nat.not_lt_zero _)
  | succ bound induction =>
      apply Holds.exists_node live (wired.ids id node live)
      intro child listed
      obtain ⟨below, belowLive, up⟩ :=
        wired.children id node live child listed
      have lower := falls id node live child listed
      rw [← up]
      exact induction belowLive (by omega)

theorem exists_unfolds (wired : arena.Wired) :
    ∃ tree, arena.Unfolds tree := by
  obtain ⟨root, rootLive, top⟩ := wired.root
  obtain ⟨height, falls⟩ := wired.grounded
  obtain ⟨tree, sameId, holds⟩ := wired.exists_holds falls
    (height arena.root + 1) rootLive (Nat.lt_succ_self _)
  rw [top] at holds
  refine ⟨tree, ?_⟩
  exact
    { root := sameId.symm
      holds := holds
      distinct := holds.nodup_ids wired.once (.root rfl) }

theorem ne_of_listed (wired : arena.Wired) {id child : Int} {node : Node}
    (live : arena.live? id = some node) (listed : child ∈ node.children) :
    child ≠ id := by
  obtain ⟨height, falls⟩ := wired.grounded
  have lower := falls id node live child listed
  intro same
  rw [same] at lower
  exact Nat.lt_irrefl _ lower

theorem parent_of_listed (wired : arena.Wired) {id child : Int}
    {node below : Node} (live : arena.live? id = some node)
    (listed : child ∈ node.children) (found : arena.live? child = some below) :
    below.parent = id := by
  obtain ⟨again, foundAgain, up⟩ := wired.children id node live child listed
  rw [found] at foundAgain
  cases foundAgain
  exact up

theorem ne_parent_of_lower (wired : arena.Wired) {high low : Node}
    (highLive : arena.live? high.id = some high)
    (lowLive : arena.live? low.id = some low)
    (lower : ∀ height, arena.Falls height → height low.id < height high.id) :
    low.id ≠ high.parent := by
  intro same
  obtain ⟨height, falls⟩ := wired.grounded
  have below := lower height falls
  have parentLive : arena.live? high.parent = some low := by
    rw [← same]
    exact lowLive
  have listed := wired.listed _ high low highLive parentLive
  have above := falls _ low parentLive _ listed
  rw [← same] at above
  omega

theorem live_of_mem (wired : arena.Wired) {node : Node}
    (member : node ∈ arena.liveNodes) : arena.live? node.id = some node := by
  obtain ⟨id, live⟩ := mem_liveNodes_iff.mp member
  rwa [wired.ids id node live]

end Wired

/-- A checked arena is wired.  The height of a node is the number of links
that its depth leaves. -/
theorem Linked.wired {arena : Arena} (linked : arena.Linked) :
    arena.Wired := by
  have depths : ∀ id, ∃ links, ∀ node, arena.live? id = some node →
      links ≤ arena.size + 1 ∧ arena.Climbs node links := by
    intro id
    cases live : arena.live? id with
    | none => exact ⟨0, by simp⟩
    | some node =>
        obtain ⟨links, bounded, climbs⟩ := linked.climbs id node live
        refine ⟨links, ?_⟩
        intro other same
        cases same
        exact ⟨bounded, climbs⟩
  choose links climbs using depths
  refine
    { cleared := ?_
      root := linked.root
      ids := linked.ids
      oneRoot := linked.oneRoot
      inside := ?_
      listed := ?_
      children := linked.children
      once := fun _ _ => linked.nodup_children
      grounded := ⟨fun id => arena.size + 2 - links id, ?_⟩ }
  · intro id node live
    by_cases top : node.parent = Node.noParent
    · intro above present
      rw [top] at present
      cases present
    · obtain ⟨parent, parentLive, _⟩ := linked.parents id node live top
      exact clearAt_of_live parentLive
  · intro id node live
    by_cases top : node.parent = Node.noParent
    · rw [top]
      unfold Node.noParent
      omega
    · obtain ⟨parent, parentLive, _⟩ := linked.parents id node live top
      exact (live?_bounds parentLive).2
  · intro id node parent live parentLive
    exact linked.mem_children live parentLive
  · intro id node live child listed
    obtain ⟨below, belowLive, up⟩ :=
      linked.children id node live child listed
    obtain ⟨bounded, childClimbs⟩ := climbs child below belowLive
    have oneMore : arena.Climbs below (links id + 1) := by
      apply Climbs.up
      · rw [up]
        exact live
      · exact (climbs id node live).2
    have same := childClimbs.unique oneMore
    show arena.size + 2 - links child < arena.size + 2 - links id
    omega

end FormulaEdit.Arena
