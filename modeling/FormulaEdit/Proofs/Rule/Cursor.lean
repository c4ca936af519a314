import FormulaEdit.Proofs.Arena.Cursor
import FormulaEdit.Proofs.Rule.Preservation
import FormulaEdit.Proofs.Rule.Writes

/-!
# Looking up a position after rules

As long as an arena passes its check, rules keep its spans laminar, wherever
they are applied.  At a live focus they rewrite the tree.  A dead focus holds
the tombstone's token, which is no operator: there rules leave the live slots
alone, or what they make fails the check.
-/

namespace FormulaEdit

open Rule

namespace Arena

theorem marked_ofText {text : String} {arena : Arena}
    (read : ofText text = .ok arena) : arena.Marked := by
  unfold ofText at read
  split at read
  next expr _ =>
      cases read
      intro id node found dead
      have member : node ∈ (Tree.ofExpr 0 expr).nodes Node.noParent := by
        rw [← slots_ofExpr, Array.mem_toList_iff]
        exact Array.mem_of_getElem? (node?_eq_some_iff.mp found).2
      have live := live?_ofExpr_iff.mpr ⟨member, rfl⟩
      rw [(live?_eq_some_iff.mp live).2] at dead
      cases dead
  next => cases read

theorem nested_ofText {text : String} {arena : Arena}
    (read : ofText text = .ok arena) : arena.Nested := by
  unfold ofText at read
  split at read
  next expr found =>
      cases read
      exact ⟨_, presents_ofExpr expr, Sexpr.laminar_of_read found⟩
  next => cases read

theorem Presents.congr {arena edited : Arena} {tree : Tree}
    (presents : arena.Presents tree) (root : edited.root = arena.root)
    (same : ∀ id, edited.live? id = arena.live? id) :
    edited.Presents tree := by
  refine { presents.toUnfolds.congr root same with covered := ?_ }
  intro id node live
  rw [same] at live
  exact presents.covered id node live

theorem Nested.congr {arena edited : Arena} (nested : arena.Nested)
    (root : edited.root = arena.root)
    (same : ∀ id, edited.live? id = arena.live? id) : edited.Nested := by
  obtain ⟨tree, presents, laminar⟩ := nested
  exact ⟨tree, presents.congr root same, laminar⟩

theorem live?_deletedId (arena : Arena) : arena.live? Node.deletedId = none := by
  cases found : arena.live? Node.deletedId with
  | none => rfl
  | some node =>
      have bounds := live?_bounds found
      unfold Node.deletedId at bounds
      omega

theorem Linked.deletedId_notMem {arena : Arena} (linked : arena.Linked)
    {id : Int} {node : Node} (live : arena.live? id = some node) :
    Node.deletedId ∉ node.children := by
  intro listed
  obtain ⟨below, belowLive, _⟩ := linked.children id node live _ listed
  rw [live?_deletedId] at belowLive
  cases belowLive

theorem Marked.live {arena : Arena} (marked : arena.Marked) {id : Int}
    {node : Node} (found : arena.node? id = some node)
    (operator : node.token ≠ Node.tombstone.token) :
    arena.live? id = some node := by
  apply live?_eq_some_iff.mpr
  refine ⟨found, ?_⟩
  cases alive : node.isLive with
  | true => rfl
  | false => exact absurd (marked id node found alive) operator

end Arena

/-! ## Rules at a dead focus -/

namespace Rule

variable {arena : Arena} {focus : Int}

theorem tombstone_at_dead (marked : arena.Marked)
    (dead : arena.live? focus = none) {node : Node}
    (found : arena.node? focus = some node) :
    node.id = Node.deletedId ∧ node.token = Node.tombstone.token := by
  have notLive : node.isLive = false := by
    cases alive : node.isLive with
    | false => rfl
    | true =>
        rw [Arena.live?_eq_some_iff.mpr ⟨found, alive⟩] at dead
        cases dead
  refine ⟨?_, marked focus node found notLive⟩
  simpa [Node.isLive] using notLive

theorem mem_of_indexIn {id : Int} {list : List Int} {index : Nat}
    (found : indexIn id list = .ok index) : id ∈ list := by
  unfold indexIn at found
  split at found
  next place =>
      have some : list.any (· == id) = true := by
        rw [← List.findIdx?_isSome, place]
        rfl
      obtain ⟨other, member, same⟩ := List.any_eq_true.mp some
      rw [← beq_iff_eq.mp same]
      exact member
  next => cases found

theorem nested_update_at_dead (nested : arena.Nested)
    (dead : arena.live? focus = none) {change : Node → Node}
    (keepsId : ∀ node, (change node).id = node.id) :
    (Outcome.edited (arena.update focus change)).arena.Nested := by
  have same : ∀ id, (arena.update focus change).live? id =
      arena.live? id := by
    intro id
    rw [Arena.live?_update _ _ _ keepsId]
    split
    next here =>
        subst here
        rw [dead]
        rfl
    next => rfl
  exact nested.congr (arena.root_update focus change) same

theorem nested_replace (nested : arena.Nested) {replacement : Replacement}
    {nodes : List Node}
    (replaced : replacement.onNodes arena.slots.toList = .ok (true, nodes)) :
    (Outcome.edited { arena with slots := nodes.toArray }).arena.Nested := by
  obtain ⟨tree, presents, laminar⟩ := nested
  obtain ⟨after, substituted, afterPresents⟩ :=
    (retokened_of_onNodes replaced).presents presents
  exact ⟨after, afterPresents.refresh,
    (Tree.thins_substitute substituted).laminar laminar⟩

end Rule

/-! ## Steps and runs -/

namespace Action

variable {action : Action} {arena : Arena} {focus : Int}
  {params : Json.Members} {condition : Condition} {outcome : Outcome}

/-- At a dead focus there is neither a negation nor a comparison.  A move would
have to find the id of deleted nodes among children, and an implication would
list it. -/
theorem nested_at_dead (nested : arena.Nested) (marked : arena.Marked)
    (dead : arena.live? focus = none)
    (ran : action.run arena focus params condition = .ok outcome)
    (valid : outcome.arena.validate = .ok ()) : outcome.arena.Nested := by
  obtain ⟨node, found, change⟩ := changed_of_run ran
  obtain ⟨number, token⟩ := tombstone_at_dead marked dead found
  cases change with
  | skip => exact nested
  | toggle flag =>
      exact nested_update_at_dead nested dead flag.toggle.id_touched
  | flip flips =>
      rw [token] at flips
      cases flips
  | @move parent _ _ _ _ above allowed place =>
      rw [number] at place
      have operator : parent.token ≠ Node.tombstone.token := by
        intro same
        rw [same] at allowed
        cases allowed
      have live := marked.live (parentOf_eq_some above) operator
      exact absurd (mem_of_indexIn place) (nested.linked.deletedId_notMem live)
  | cancel negation | absorb negation =>
      rw [token] at negation
      exact absurd negation (by decide)
  | imply above isDisjunction ran =>
      obtain ⟨premise, live, children⟩ :=
        imply_premise (parentOf_eq_some above) ran
      have linked := Arena.validate_eq_ok_iff_linked.mp valid
      refine absurd ?_ (linked.deletedId_notMem live)
      rw [children, number]
      exact List.mem_cons_self
  | replace asked replaced => exact nested_replace nested replaced

theorem nested_at_live (nested : arena.Nested) {node : Node}
    (live : arena.live? focus = some node)
    (ran : action.run arena focus params condition = .ok outcome)
    (valid : outcome.arena.validate = .ok ()) : outcome.arena.Nested := by
  obtain ⟨tree, presents, laminar⟩ := nested
  have number : node.id = focus := presents.linked.ids focus node live
  subst number
  rcases run_cases presents live ran with
    rfl | ⟨_, after, _, rewrites, orphaned, kept⟩
  · exact ⟨tree, presents, laminar⟩
  · have clean : ¬LossySquash arena action node outcome := by
      intro lossy
      obtain ⟨orphan, orphanLive, lost⟩ := orphaned lossy
      exact Arena.validate_ne_ok_of_orphan orphanLive lost valid
    exact ⟨after, kept clean, rewrites.thins.laminar laminar⟩

end Action

namespace Arena

/-- One application of a rule, at any id, after which the arena passes its
check. -/
def CheckedStep (arena next : Arena) : Prop :=
  arena.RuleStep next ∧ next.validate = .ok ()

theorem CheckedStep.nested {arena next : Arena}
    (step : arena.CheckedStep next) (nested : arena.Nested)
    (marked : arena.Marked) : next.Nested := by
  obtain ⟨⟨ran⟩, valid⟩ := step
  cases live : arena.live? _ with
  | none => exact Action.nested_at_dead nested marked live ran valid
  | some node => exact Action.nested_at_live nested live ran valid

/-- Along a run of rules between checked arenas the spans stay laminar. -/
theorem nested_of_steps {text : String} {start arena : Arena}
    (read : ofText text = .ok start)
    (steps : Relation.ReflTransGen CheckedStep start arena) :
    arena.Nested ∧ arena.Marked := by
  induction steps with
  | refl => exact ⟨nested_ofText read, marked_ofText read⟩
  | tail _ step induction =>
      obtain ⟨nested, marked⟩ := induction
      exact ⟨step.nested nested marked, step.1.writes.marked marked⟩

end Arena

/-- After any run of rules between checked arenas, a node is a proper ancestor
of another just when its span strictly contains the other's, and the spans of
unrelated nodes share no position.  A lookup therefore finds the one node that
all others at the position are above, and equal depths never have to be told
apart. -/
theorem cursor_lookup_unambiguous {text : String} {start arena : Arena}
    (read : Arena.ofText text = .ok start)
    (steps : Relation.ReflTransGen Arena.CheckedStep start arena) :
    (∀ first ∈ arena.liveNodes, ∀ second ∈ arena.liveNodes,
      first.span.isKnown = true → second.span.isKnown = true →
      first ≠ second →
        (arena.Above first.id second.id ↔
          first.span.StrictlyContains second.span) ∧
        (¬arena.Above first.id second.id → ¬arena.Above second.id first.id →
          first.span.Apart second.span)) ∧
    ∀ position,
      (arena.findAt position = .ok none ↔
        ∀ node ∈ arena.liveNodes, node.span.contains position = false) ∧
      ((∃ node ∈ arena.liveNodes, node.span.contains position = true) →
        ∃ found ∈ arena.liveNodes, arena.findAt position = .ok (some found) ∧
          ∀ node ∈ arena.liveNodes, node.span.contains position = true ↔
            node = found ∨
              arena.Above node.id found.id ∧ node.span.isKnown = true) ∧
      ∀ first ∈ arena.liveNodes, ∀ second ∈ arena.liveNodes,
        first.span.contains position = true →
        second.span.contains position = true →
        arena.depth first = arena.depth second → first = second := by
  have nested := (Arena.nested_of_steps read steps).1
  have linked := nested.linked
  constructor
  · intro first firstMember second secondMember firstKnown secondKnown distinct
    have firstLive := linked.live_of_mem firstMember
    have secondLive := linked.live_of_mem secondMember
    have apartIds := linked.id_ne firstMember secondMember distinct
    refine ⟨nested.above_iff apartIds firstLive secondLive firstKnown
      secondKnown, ?_⟩
    intro notAbove notBelow
    rcases nested.above_or_apart apartIds firstLive secondLive firstKnown
      secondKnown with above | below | apart
    · exact absurd above notAbove
    · exact absurd below notBelow
    · exact apart
  · intro position
    refine ⟨nested.findAt_eq_none_iff position, ?_, ?_⟩
    · rintro ⟨node, member, inside⟩
      exact nested.exists_found member inside
    · intro first firstMember second secondMember inFirst inSecond same
      exact nested.eq_of_depth firstMember secondMember inFirst inSecond same

/-- In `(or (not (not p))` and, on the next line, `(q r))`, the double negation
is squashed, one of its slots, dead by then, is toggled, and the list becomes
a premise.  At its `q` there are three live spans. -/
theorem cursor_lookup_unambiguous_premise :
    ∃ (start arena : Arena) (found root : Node),
    Arena.ofText "(or (not (not p))\n (q r))" = .ok start ∧
    Relation.ReflTransGen Arena.CheckedStep start arena ∧
    (arena.liveNodes.filter (·.span.contains ⟨1, 2⟩)).map Node.token =
      ["=>", "list", "q"] ∧
    arena.findAt ⟨1, 2⟩ = .ok (some found) ∧ found.token = "q" ∧
    root ∈ arena.liveNodes ∧ root.token = "=>" ∧
    arena.Above root.id found.id ∧
    root.span.StrictlyContains found.span := by
  have shown : (do
      let start ← Arena.ofText "(or (not (not p))\n (q r))"
      let squashed ← Action.squashNegation.run start 1 [] .always
      squashed.arena.validate
      let toggled ← Action.toggleBreak.run squashed.arena 1 [] .always
      toggled.arena.validate
      let implied ← Action.toImplication.run toggled.arena 4 [] .always
      implied.arena.validate
      let found ← implied.arena.findAt ⟨1, 2⟩
      let here := implied.arena.liveNodes.filter fun (node : Node) =>
        node.span.contains ⟨1, 2⟩
      return (here.map Node.token, found.map Node.token)).toOption =
        some (["=>", "list", "q"], some "q") := by
    decide +kernel
  obtain ⟨start, read, rest⟩ :=
    Result.bind_eq_ok_iff.mp (Result.toOption_eq_some_iff.mp shown)
  obtain ⟨squashed, first, rest⟩ := Result.bind_eq_ok_iff.mp rest
  obtain ⟨_, firstValid, rest⟩ := Result.bind_eq_ok_iff.mp rest
  obtain ⟨toggled, second, rest⟩ := Result.bind_eq_ok_iff.mp rest
  obtain ⟨_, secondValid, rest⟩ := Result.bind_eq_ok_iff.mp rest
  obtain ⟨implied, third, rest⟩ := Result.bind_eq_ok_iff.mp rest
  obtain ⟨_, thirdValid, rest⟩ := Result.bind_eq_ok_iff.mp rest
  obtain ⟨answer, looked, last⟩ := Result.bind_eq_ok_iff.mp rest
  obtain ⟨tokens, answerToken⟩ := Prod.mk.inj (Except.ok.inj last)
  obtain ⟨found, rfl, foundToken⟩ := Option.map_eq_some_iff.mp answerToken
  have steps : Relation.ReflTransGen Arena.CheckedStep start implied.arena :=
    .tail (.tail (.single ⟨.run first, firstValid⟩)
      ⟨.run second, secondValid⟩) ⟨.run third, thirdValid⟩
  obtain ⟨related, lookups⟩ := cursor_lookup_unambiguous read steps
  obtain ⟨root, others, listed, rootToken, _⟩ := List.map_eq_cons_iff.mp tokens
  obtain ⟨rootMember, rootInside⟩ :=
    List.mem_filter.mp (listed ▸ List.mem_cons_self)
  obtain ⟨again, foundMember, sameLookup, containing⟩ :=
    (lookups ⟨1, 2⟩).2.1 ⟨root, rootMember, rootInside⟩
  rw [looked] at sameLookup
  cases sameLookup
  have distinct : root ≠ found := by
    rintro rfl
    rw [rootToken] at foundToken
    exact absurd foundToken (by decide)
  obtain ⟨above, rootKnown⟩ :=
    ((containing root rootMember).mp rootInside).resolve_left distinct
  have foundKnown :=
    Span.isKnown_of_contains ((containing found foundMember).mpr (.inl rfl))
  exact ⟨start, implied.arena, found, root, read, steps, tokens, looked,
    foundToken, rootMember, rootToken, above,
    (related root rootMember found foundMember rootKnown foundKnown
      distinct).1.mp above⟩

end FormulaEdit
