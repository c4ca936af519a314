import FormulaEdit.Proofs.Arena.Validity

/-!
# Depths in arbitrary arenas

The depth of a node is counted without remembering the nodes on the way: only a
bound on the count keeps a cycle of parents from being followed forever.  Here
nothing is asked of the arena, so a chain of parents may end at a root, leave
the arena, meet a tombstone or run into a cycle.

A chain of more links than there are slots meets some slot twice.  So the bound
cuts off the cyclic chains and no others, and every other chain is followed to
its end.
-/

namespace FormulaEdit.Arena

/-- Following parents from a node arrives at another one after this many
links, all to live nodes. -/
inductive Reaches (arena : Arena) : Node → (links : Nat) → Node → Prop where
  | here (node : Node) : Reaches arena node 0 node
  | up {node parent last : Node} {links : Nat}
      (live : arena.live? node.parent = some parent)
      (rest : Reaches arena parent links last) :
      Reaches arena node (links + 1) last

/-- What is wrong with the link from a node to its parent. -/
inductive BrokenLink (arena : Arena) (node : Node) : ArenaFault → Prop where
  | outside (below : node.parent ≠ Node.noParent)
      (absent : arena.node? node.parent = none) :
      BrokenLink arena node (.outside node.parent arena.size)
  | deleted {grave : Node} (found : arena.node? node.parent = some grave)
      (dead : grave.isLive = false) :
      BrokenLink arena node (.deletedParent node.id node.parent)

/-- The chain of parents of a node comes to a broken link. -/
def Breaks (arena : Arena) (node : Node) (fault : ArenaFault) : Prop :=
  ∃ links last, arena.Reaches node links last ∧ arena.BrokenLink last fault

/-- The chain of parents of a node meets a node that it comes back to. -/
def Cyclic (arena : Arena) (node : Node) : Prop :=
  ∃ links met round, arena.Reaches node links met ∧
    arena.Reaches met (round + 1) met

variable {arena : Arena}

/-! ## Chains of parents -/

namespace Reaches

theorem trans {first middle last : Node} {links more : Nat}
    (reaches : arena.Reaches first links middle)
    (further : arena.Reaches middle more last) :
    arena.Reaches first (more + links) last := by
  induction reaches with
  | here node => exact further
  | up live _ induction => exact .up live (induction further)

theorem cut {first last : Node} (links more : Nat)
    (reaches : arena.Reaches first (links + more) last) :
    ∃ middle, arena.Reaches first links middle ∧
      arena.Reaches middle more last := by
  induction links generalizing first with
  | zero => exact ⟨first, .here first, by rwa [Nat.zero_add] at reaches⟩
  | succ links induction =>
      rw [Nat.succ_add] at reaches
      cases reaches with
      | up live rest =>
          obtain ⟨middle, before, after⟩ := induction rest
          exact ⟨middle, .up live before, after⟩

theorem unique {node first second : Node} {links : Nat}
    (reaches : arena.Reaches node links first)
    (again : arena.Reaches node links second) : first = second := by
  induction reaches with
  | here node =>
      cases again with
      | here => rfl
  | up live _ induction =>
      cases again with
      | up liveAgain rest =>
          rw [live] at liveAgain
          cases liveAgain
          exact induction rest

theorem end_unique {node first second : Node} {links more : Nat}
    (reaches : arena.Reaches node links first)
    (again : arena.Reaches node more second)
    (ends : arena.live? first.parent = none)
    (endsAgain : arena.live? second.parent = none) :
    links = more ∧ first = second := by
  induction reaches generalizing more with
  | here node =>
      cases again with
      | here => exact ⟨rfl, rfl⟩
      | up live _ =>
          rw [ends] at live
          cases live
  | up live _ induction =>
      cases again with
      | here =>
          rw [endsAgain] at live
          cases live
      | up liveAgain rest =>
          rw [live] at liveAgain
          cases liveAgain
          obtain ⟨sameLinks, same⟩ := induction rest ends
          exact ⟨by rw [sameLinks], same⟩

end Reaches

theorem live?_noParent : arena.live? Node.noParent = none := rfl

/-- To climb to a root is to follow parents up to a node without one. -/
theorem climbs_iff {node : Node} {links : Nat} :
    arena.Climbs node links ↔
      ∃ last, arena.Reaches node links last ∧
        last.parent = Node.noParent := by
  constructor
  · intro climbs
    induction climbs with
    | @root node top => exact ⟨node, .here node, top⟩
    | up live _ induction =>
        obtain ⟨last, reaches, top⟩ := induction
        exact ⟨last, .up live reaches, top⟩
  · rintro ⟨last, reaches, top⟩
    induction reaches with
    | here => exact .root top
    | up live _ induction => exact .up live (induction top)

theorem BrokenLink.ends {node : Node} {fault : ArenaFault}
    (broken : arena.BrokenLink node fault) :
    arena.live? node.parent = none := by
  cases broken with
  | outside _ absent => rw [live?, absent]; rfl
  | deleted found dead => simp [live?, found, dead]

theorem BrokenLink.parent_ne {node : Node} {fault : ArenaFault}
    (broken : arena.BrokenLink node fault) : node.parent ≠ Node.noParent := by
  cases broken with
  | outside below _ => exact below
  | deleted found _ =>
      have bounds := node?_bounds found
      unfold Node.noParent
      omega

theorem BrokenLink.ne_parentCycle {node : Node} {fault : ArenaFault}
    (broken : arena.BrokenLink node fault) (id : Int) :
    fault ≠ .parentCycle id := by
  cases broken <;> exact nofun

theorem BrokenLink.unique {node : Node} {first second : ArenaFault}
    (broken : arena.BrokenLink node first)
    (again : arena.BrokenLink node second) : first = second := by
  cases broken with
  | outside _ absent =>
      cases again with
      | outside => rfl
      | deleted found _ =>
          rw [absent] at found
          cases found
  | deleted found _ =>
      cases again with
      | outside _ absent =>
          rw [absent] at found
          cases found
      | deleted => rfl

/-! ## Cycles -/

namespace Cyclic

theorem up {node parent : Node} (live : arena.live? node.parent = some parent)
    (cyclic : arena.Cyclic parent) : arena.Cyclic node := by
  obtain ⟨links, met, round, reaches, back⟩ := cyclic
  exact ⟨links + 1, met, round, .up live reaches, back⟩

theorem exists_reaches {node : Node} (cyclic : arena.Cyclic node)
    (links : Nat) : ∃ last, arena.Reaches node links last := by
  obtain ⟨lead, met, round, reaches, back⟩ := cyclic
  have rounds : ∀ count, ∃ longer, count ≤ longer ∧
      arena.Reaches met longer met := by
    intro count
    induction count with
    | zero => exact ⟨0, Nat.le_refl 0, .here met⟩
    | succ count induction =>
        obtain ⟨longer, enough, again⟩ := induction
        exact ⟨longer + (round + 1), by omega, back.trans again⟩
  obtain ⟨longer, enough, again⟩ := rounds links
  have long := reaches.trans again
  obtain ⟨extra, length⟩ : ∃ extra, longer + lead = links + extra :=
    ⟨longer + lead - links, by omega⟩
  rw [length] at long
  obtain ⟨middle, before, _⟩ := long.cut links extra
  exact ⟨middle, before⟩

theorem goes_on {node last : Node} {links : Nat} (cyclic : arena.Cyclic node)
    (reaches : arena.Reaches node links last) :
    arena.live? last.parent ≠ none := by
  intro ends
  obtain ⟨beyond, further⟩ := cyclic.exists_reaches (links + 1)
  obtain ⟨middle, before, step⟩ := further.cut links 1
  rw [← reaches.unique before] at step
  cases step with
  | up live _ =>
      rw [ends] at live
      cases live

end Cyclic

/-- The ids on a chain without a cycle are distinct: at the second meeting of
an id the chain has come back to the node of its slot. -/
theorem Reaches.exists_trail {node last : Node} {links : Nat}
    (reaches : arena.Reaches node links last) :
    ∃ trail : List Int, trail.length = links ∧
      (∀ id ∈ trail, ∃ more met, arena.live? id = some met ∧
        arena.Reaches node (more + 1) met) ∧
      (trail.Nodup ∨ arena.Cyclic node) := by
  induction reaches with
  | here node => exact ⟨[], rfl, by simp, .inl List.nodup_nil⟩
  | @up node parent last links live _ induction =>
      obtain ⟨trail, length, onChain, distinct⟩ := induction
      refine ⟨node.parent :: trail, by rw [List.length_cons, length], ?_, ?_⟩
      · rw [List.forall_mem_cons]
        refine ⟨⟨0, parent, live, .up live (.here parent)⟩, ?_⟩
        intro id member
        obtain ⟨more, met, metLive, further⟩ := onChain id member
        exact ⟨more + 1, met, metLive, .up live further⟩
      · rcases distinct with nodup | cyclic
        · by_cases again : node.parent ∈ trail
          · right
            obtain ⟨more, met, metLive, back⟩ := onChain node.parent again
            rw [live] at metLive
            cases metLive
            exact .up live ⟨0, parent, more, .here parent, back⟩
          · exact .inl (List.nodup_cons.mpr ⟨again, nodup⟩)
        · exact .inr (.up live cyclic)

/-- A chain of more links than there are slots is cyclic. -/
theorem Reaches.cyclic_of_long {node last : Node} {links : Nat}
    (reaches : arena.Reaches node links last) (long : arena.size < links) :
    arena.Cyclic node := by
  obtain ⟨trail, length, onChain, nodup | cyclic⟩ := reaches.exists_trail
  · have bound := length_le_size_of_live nodup (by
      intro id member
      obtain ⟨_, met, live, _⟩ := onChain id member
      exact ⟨met, live⟩)
    omega
  · exact cyclic

/-! ## The count -/

/-- Counting fails at a broken link that the fuel lasts for, or when the fuel
is used up below the root. -/
theorem climb_error_cases {start : Int} {fuel depth : Nat} {node : Node}
    {failure : Failure}
    (failed : arena.climb start fuel depth node = .error failure) :
    (∃ fault, failure = .arena fault ∧ arena.Breaks node fault) ∨
      failure = .arena (.parentCycle start) ∧
        ∃ last, arena.Reaches node fuel last := by
  induction fuel generalizing depth node with
  | zero =>
      rw [climb] at failed
      split at failed
      · cases failed
      · cases failed
        exact .inr ⟨rfl, node, .here node⟩
  | succ fuel induction =>
      rw [climb] at failed
      split at failed
      · cases failed
      next below =>
        rcases Result.bind_eq_error_iff.mp failed with
          early | ⟨parent, found, late⟩
        · -- The parent is looked up first, so this is an id without a slot.
          left
          unfold Arena.node at early
          split at early
          · cases early
          next absent =>
            cases early
            exact ⟨_, rfl, 0, node, .here node, .outside below absent⟩
        rw [node_eq_ok_iff] at found
        split at late
        next alive =>
          have live := live?_eq_some_iff.mpr ⟨found, alive⟩
          rcases induction late with
            ⟨fault, rfl, links, last, reaches, broken⟩ | ⟨rfl, last, reaches⟩
          · exact .inl ⟨fault, rfl, links + 1, last, .up live reaches, broken⟩
          · exact .inr ⟨rfl, last, .up live reaches⟩
        next dead =>
          left
          cases late
          exact ⟨_, rfl, 0, node, .here node,
            .deleted found (Bool.eq_false_iff.mpr dead)⟩

theorem depth_error_cases {node : Node} {failure : Failure}
    (failed : arena.depth node = .error failure) :
    (∃ fault, failure = .arena fault ∧ arena.Breaks node fault) ∨
      failure = .arena (.parentCycle node.id) ∧ arena.Cyclic node := by
  rcases climb_error_cases failed with broken | ⟨cycle, last, reaches⟩
  · exact .inl broken
  · exact .inr ⟨cycle, reaches.cyclic_of_long (Nat.lt_succ_self _)⟩

theorem Climbs.not_breaks {node : Node} {links : Nat} {fault : ArenaFault}
    (climbs : arena.Climbs node links) : ¬arena.Breaks node fault := by
  rintro ⟨more, stop, further, broken⟩
  obtain ⟨last, reaches, top⟩ := climbs_iff.mp climbs
  have ends : arena.live? last.parent = none := by rw [top, live?_noParent]
  obtain ⟨_, rfl⟩ := reaches.end_unique further ends broken.ends
  exact broken.parent_ne top

theorem Climbs.not_cyclic {node : Node} {links : Nat}
    (climbs : arena.Climbs node links) : ¬arena.Cyclic node := by
  intro cyclic
  obtain ⟨last, reaches, top⟩ := climbs_iff.mp climbs
  exact cyclic.goes_on reaches (by rw [top, live?_noParent])

theorem Breaks.not_cyclic {node : Node} {fault : ArenaFault}
    (breaks : arena.Breaks node fault) : ¬arena.Cyclic node := by
  intro cyclic
  obtain ⟨links, last, reaches, broken⟩ := breaks
  exact cyclic.goes_on reaches broken.ends

theorem Breaks.unique {node : Node} {first second : ArenaFault}
    (breaks : arena.Breaks node first) (again : arena.Breaks node second) :
    first = second := by
  obtain ⟨links, last, reaches, broken⟩ := breaks
  obtain ⟨more, stop, further, brokenAgain⟩ := again
  obtain ⟨_, rfl⟩ := reaches.end_unique further broken.ends brokenAgain.ends
  exact broken.unique brokenAgain

/-- A failed count is due to a broken link at the end of the chain, or to a
cycle, and each of the two makes it fail. -/
theorem depth_eq_error_iff {node : Node} {failure : Failure} :
    arena.depth node = .error failure ↔
      (∃ fault, failure = .arena fault ∧ arena.Breaks node fault) ∨
        failure = .arena (.parentCycle node.id) ∧ arena.Cyclic node := by
  constructor
  · exact depth_error_cases
  intro cause
  cases counted : arena.depth node with
  | ok links =>
      have climbs := (depth_eq_ok_iff.mp counted).2
      rcases cause with ⟨fault, _, breaks⟩ | ⟨_, cyclic⟩
      · exact absurd breaks climbs.not_breaks
      · exact absurd cyclic climbs.not_cyclic
  | error found =>
      rcases depth_error_cases counted with
        ⟨first, rfl, broken⟩ | ⟨rfl, aroundFound⟩
      · rcases cause with ⟨fault, rfl, breaks⟩ | ⟨_, cyclic⟩
        · rw [broken.unique breaks]
        · exact absurd cyclic broken.not_cyclic
      · rcases cause with ⟨fault, _, breaks⟩ | ⟨rfl, _⟩
        · exact absurd aroundFound breaks.not_cyclic
        · rfl

/-- In any arena, the depth of a node is the number of links to a root, when
its chain of parents leads to one.  Otherwise the count fails with a fault of
the arena: with that of the broken link at the end of the chain, or, if there
is no end, with that of a cycle.  So the bound on the count stops the cyclic
chains and no others. -/
theorem depth_exact (arena : Arena) (node : Node) :
    (∀ links, arena.depth node = .ok links ↔ arena.Climbs node links) ∧
      ((∃ fault, arena.depth node = .error (.arena fault)) ↔
        ∀ links, ¬arena.Climbs node links) ∧
      (∀ failure, arena.depth node = .error failure ↔
        (∃ fault, failure = .arena fault ∧ arena.Breaks node fault) ∨
          failure = .arena (.parentCycle node.id) ∧ arena.Cyclic node) ∧
      ((∃ id, arena.depth node = .error (.arena (.parentCycle id))) ↔
        arena.Cyclic node) := by
  have counts : ∀ links,
      arena.depth node = .ok links ↔ arena.Climbs node links := by
    intro links
    rw [depth_eq_ok_iff]
    constructor
    · exact And.right
    · intro climbs
      obtain ⟨last, reaches, _⟩ := climbs_iff.mp climbs
      refine ⟨?_, climbs⟩
      by_contra long
      exact climbs.not_cyclic (reaches.cyclic_of_long (by omega))
  refine ⟨counts, ?_, fun _ => depth_eq_error_iff, ?_⟩
  · constructor
    · rintro ⟨fault, failed⟩ links climbs
      rw [(counts links).mpr climbs] at failed
      cases failed
    · intro never
      cases counted : arena.depth node with
      | ok links => exact absurd ((counts links).mp counted) (never links)
      | error failure =>
          rcases depth_error_cases counted with ⟨fault, rfl, _⟩ | ⟨rfl, _⟩
          · exact ⟨fault, rfl⟩
          · exact ⟨_, rfl⟩
  · constructor
    · rintro ⟨id, failed⟩
      rcases depth_error_cases failed with
        ⟨fault, same, _, _, _, broken⟩ | ⟨_, cyclic⟩
      · cases same
        exact absurd rfl (broken.ne_parentCycle id)
      · exact cyclic
    · intro cyclic
      exact ⟨node.id, depth_eq_error_iff.mpr (.inr ⟨rfl, cyclic⟩)⟩

end FormulaEdit.Arena
