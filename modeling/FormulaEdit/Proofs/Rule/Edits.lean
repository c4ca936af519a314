import FormulaEdit.Proofs.RoundTrip
import FormulaEdit.Proofs.Rule.Squash
import FormulaEdit.Proofs.Rule.Wiring
import Mathlib.Logic.Relation

/-!
# Rules as edits

Every rule but the replacement of texts makes edits of the three kinds, also
at nodes that hang below a tombstone.  What each kind of edit keeps is
therefore kept by the rules: arenas stay wired, and their tokens readable.
-/

namespace FormulaEdit.Rule

theorem relabels_self {arena : Arena} (cleared : arena.Cleared) :
    Relabels arena (fun _ node => node) arena :=
  { id := fun _ _ _ => rfl
    parent := fun _ _ _ => rfl
    children := fun _ _ _ => .refl _
    token := fun _ _ _ => .inl rfl
    cleared := cleared
    root := rfl
    size := rfl
    slots := fun id => by simp }

theorem relabels_update {arena : Arena} (cleared : arena.Cleared) {id : Int}
    {node : Node} (live : arena.live? id = some node) {change : Node → Node}
    (keepsId : ∀ node, (change node).id = node.id)
    (parent : (change node).parent = node.parent)
    (children : (change node).children.Perm node.children)
    (token : (change node).token = node.token ∨
      Node.isOperator (change node).token = true) :
    Relabels arena
      (fun other node => if other = id then change node else node)
      (arena.update id change) := by
  let changed (other : Int) (node : Node) : Node :=
    if other = id then change node else node
  have kept : ∀ other found, arena.live? other = some found →
      (changed other found).id = found.id ∧
      (changed other found).parent = found.parent ∧
      (changed other found).children.Perm found.children ∧
      ((changed other found).token = found.token ∨
        Node.isOperator (changed other found).token = true) := by
    intro other found present
    by_cases same : other = id
    · rw [same, live] at present
      cases present
      have now : changed other node = change node := if_pos same
      rw [now]
      exact ⟨keepsId node, parent, children, token⟩
    · have now : changed other found = found := if_neg same
      rw [now]
      exact ⟨rfl, rfl, .refl _, .inl rfl⟩
  exact
    { id := fun other found present => (kept other found present).1
      parent := fun other found present => (kept other found present).2.1
      children := fun other found present => (kept other found present).2.2.1
      token := fun other found present => (kept other found present).2.2.2
      cleared := cleared.update_below live keepsId parent
      root := arena.root_update id change
      size := arena.size_update id change
      slots := by
        intro other
        rw [arena.live?_update id other keepsId]
        by_cases same : other = id
        · simp only [same, if_true]
        · simp only [same, if_false, Option.map_id'] }

/-- One edit of the slots of an arena. -/
inductive Edit (arena edited : Arena) : Prop where
  | relabel {change : Int → Node → Node}
      (relabels : Relabels arena change edited)
  | hoist {old heir : Node} {buried children : List Int}
      (hoists : Hoists arena old heir buried children edited)
  | imply {label : Label} {parent branch : Int} {children : List Int}
      (implies : Implies arena label parent branch children edited)

/-- Edits, one after the other. -/
abbrev Edits : Arena → Arena → Prop := Relation.ReflTransGen Edit

namespace Edit

variable {arena edited : Arena}

theorem wired (edit : Edit arena edited) (wired : arena.Wired) :
    edited.Wired := by
  cases edit with
  | relabel relabels => exact relabels.wired wired
  | hoist hoists => exact hoists.wired_edited wired
  | imply implies => exact implies.wired_edited wired

/-- A token is an operator or was there before, on a node that had children
just when it has some now. -/
theorem token (edit : Edit arena edited) (wired : arena.Wired) {id : Int}
    {after : Node} (live : edited.live? id = some after) :
    Node.isOperator after.token = true ∨
      ∃ node, arena.live? id = some node ∧ after.token = node.token ∧
        (after.children = [] ↔ node.children = []) := by
  cases edit with
  | relabel relabels =>
      obtain ⟨node, found, rfl⟩ := relabels.exists_before live
      rcases relabels.token id node found with same | operator
      · right
        refine ⟨node, found, same, ?_⟩
        have reordered := relabels.children id node found
        rw [← List.length_eq_zero_iff, reordered.length_eq,
          List.length_eq_zero_iff]
      · exact .inl operator
  | @hoist old heir _ children hoists =>
      obtain ⟨_, node, found, rfl⟩ := hoists.exists_before live
      right
      refine ⟨node, found, ?_⟩
      unfold rehung
      split
      · exact ⟨rfl, Iff.rfl⟩
      split
      next isParent =>
        subst isParent
        obtain ⟨before, rest, was, now⟩ := hoists.replaced node found
        refine ⟨rfl, ?_⟩
        simp [was, now]
      next => exact ⟨rfl, Iff.rfl⟩
  | imply implies =>
      cases (Implies.slot_iff wired implies).mp live with
      | implication _ holds => exact .inl (by rw [holds]; rfl)
      | premise _ holds => exact .inl (by rw [holds]; rfl)
      | conclusion _ holds => exact .inl (by rw [holds]; rfl)
      | adopted node _ found holds =>
          exact .inr ⟨node, found, by rw [holds], by rw [holds]⟩
      | kept _ _ found => exact .inr ⟨after, found, rfl, Iff.rfl⟩

theorem readable (edit : Edit arena edited) (wired : arena.Wired)
    (readable : arena.Readable) : edited.Readable := by
  intro after member
  obtain ⟨id, live⟩ := Arena.mem_liveNodes_iff.mp member
  rcases edit.token wired live with operator | ⟨node, found, token, childless⟩
  · exact .inl (Sexpr.isAtom_of_isOperator operator)
  · have before := readable node (Arena.mem_liveNodes_iff.mpr ⟨id, found⟩)
    unfold Label.Readable Label.ofNode at before ⊢
    rw [token, childless]
    exact before

theorem refresh (cleared : arena.Cleared) : Edit arena arena.refresh := by
  have relabels : Relabels arena (fun _ node => node) arena.refresh :=
    { relabels_self cleared with slots := fun id => by simp }
  exact .relabel relabels

end Edit

namespace Edits

variable {arena edited : Arena}

theorem wired (edits : Edits arena edited) (wired : arena.Wired) :
    edited.Wired := by
  induction edits with
  | refl => exact wired
  | tail _ edit induction => exact edit.wired induction

theorem readable (edits : Edits arena edited) (wired : arena.Wired)
    (readable : arena.Readable) : edited.Readable := by
  induction edits with
  | refl => exact readable
  | tail edits edit induction =>
      exact edit.readable (Edits.wired edits wired) induction

theorem report (edits : Edits arena edited) (cleared : edited.Cleared) :
    Edits arena (Outcome.edited edited).arena :=
  edits.tail (.refresh cleared)

end Edits

section InPlace

variable {arena : Arena} {focus : Int} {node : Node}

theorem edits_update (wired : arena.Wired) {id : Int}
    (live : arena.live? id = some node) {change : Node → Node}
    (keepsId : ∀ node, (change node).id = node.id)
    (parent : (change node).parent = node.parent)
    (children : (change node).children.Perm node.children)
    (token : (change node).token = node.token ∨
      Node.isOperator (change node).token = true) :
    Edits arena (Outcome.edited (arena.update id change)).arena := by
  have relabels :=
    relabels_update wired.cleared live keepsId parent children token
  exact Edits.report (.single (.relabel relabels)) relabels.cleared

theorem toggle_edits (flag : Flag) (wired : arena.Wired)
    (live : arena.live? focus = some node) :
    Edits arena
      (Outcome.edited (arena.update focus flag.toggle.touched)).arena := by
  apply edits_update wired live flag.toggle.id_touched
    (flag.toggle.parent_touched node)
  · cases flag <;> exact .refl _
  · cases flag <;> exact .inl rfl

theorem isOperator_flipped {token flipped : String}
    (found : flippedComparison? token = some flipped) :
    Node.isOperator flipped = true := by
  have each : ∀ pair ∈ [("=", "="), ("<", ">="), (">", "<="), (">=", "<"),
      ("<=", ">")], Node.isOperator pair.2 = true := by decide
  exact each _ (flippedComparison?_eq_some_iff.mp found)

theorem flip_edits (wired : arena.Wired)
    (live : arena.live? focus = some node) {token : String}
    {first second : Int}
    (flips : flippedComparison? node.token = some token)
    (binary : node.children = [first, second]) :
    Edits arena (Outcome.edited (arena.update focus fun node =>
      { node with token := token, children := [second, first] })).arena := by
  apply edits_update wired live
  · exact fun _ => rfl
  · rfl
  · rw [binary]
    exact .swap _ _ []
  · exact .inr (isOperator_flipped flips)

theorem swapNext_perm (index : Nat) (list : List Int) :
    (swapNext index list).Perm list := by
  fun_induction swapNext index list with
  | case1 first second rest => exact .swap first second rest
  | case2 index first rest induction => exact induction.cons first
  | case3 => exact .refl _

theorem moved?_perm {direction : Direction} {index : Nat}
    {list moved : List Int} (found : moved? direction index list = some moved) :
    moved.Perm list := by
  unfold moved? at found
  split at found
  all_goals
    split at found
    all_goals
      cases found
      try exact swapNext_perm _ list

/-- The parent of a node is live, unless it was deleted. -/
theorem live_or_tombstone_of_parentOf (cleared : arena.Cleared)
    (here : arena.live? focus = some node) {parent : Node}
    (found : arena.parentOf node = .ok (some parent)) :
    arena.live? node.parent = some parent ∨ parent = Node.tombstone := by
  unfold Arena.parentOf at found
  split at found
  · cases found
  obtain ⟨_, stored, same⟩ := Result.map_eq_ok_iff.mp found
  cases same
  cases live : arena.live? node.parent with
  | none => exact .inr ((cleared focus node here).node_of_dead stored live)
  | some above =>
      rw [Arena.node_of_live live] at stored
      cases stored
      exact .inl rfl

theorem move_edits (wired : arena.Wired)
    (live : arena.live? focus = some node) {parent : Node}
    {direction : Direction} {index : Nat} {children : List Int}
    (above : arena.parentOf node = .ok (some parent))
    (allowed : isReorderable parent.token = true)
    (moved : moved? direction index parent.children = some children) :
    Edits arena (Outcome.edited (arena.update node.parent fun node =>
      { node with children := children })).arena := by
  rcases live_or_tombstone_of_parentOf wired.cleared live above with
    parentLive | rfl
  · exact edits_update wired parentLive (fun _ => rfl) rfl (moved?_perm moved)
      (.inl rfl)
  · cases allowed

end InPlace

section Squash

variable {arena : Arena}

theorem replaceFirst_eq_some {old item : Int} {list replaced : List Int}
    (found : replaceFirst old item list = some replaced) :
    ∃ before after, list = before ++ old :: after ∧
      replaced = before ++ item :: after := by
  induction list generalizing replaced with
  | nil => cases found
  | cons head tail induction =>
      unfold replaceFirst at found
      split at found
      next same =>
        cases found
        exact ⟨[], tail, by rw [same]; rfl, rfl⟩
      next =>
        obtain ⟨rest, later, rfl⟩ := Option.map_eq_some_iff.mp found
        obtain ⟨before, after, rfl, rfl⟩ := induction later
        exact ⟨head :: before, after, rfl, rfl⟩

/-- A node was hung into the place of another, which is still there. -/
structure Rehangs (arena : Arena) (old heir : Node) (children : List Int)
    (inherited : Arena) : Prop where
  replaced : ∀ parent, arena.live? old.parent = some parent →
    ∃ before after, parent.children = before ++ old.id :: after ∧
      children = before ++ heir.id :: after
  cleared : inherited.Cleared
  root : inherited.root =
    if old.parent = Node.noParent then heir.id else arena.root
  size : inherited.size = arena.size
  slots : ∀ id, inherited.live? id =
    (arena.live? id).map (rehung old heir.id children id)

theorem Rehangs.live {old heir node : Node} {children : List Int}
    {inherited : Arena} (rehangs : Rehangs arena old heir children inherited)
    {id : Int} (live : arena.live? id = some node) :
    inherited.live? id = some (rehung old heir.id children id node) := by
  rw [rehangs.slots, live, Option.map_some]

theorem rehangs_at_root {old heir : Node} (cleared : arena.Cleared)
    (clear : arena.ClearAt old.parent)
    (heirLive : arena.live? heir.id = some heir)
    (top : old.parent = Node.noParent) :
    Rehangs arena old heir [] { arena.update heir.id fun node =>
      { node with parent := old.parent } with root := heir.id } := by
  have dead : arena.live? old.parent = none := by
    rw [top]
    rfl
  refine
    { replaced := ?_
      cleared := cleared.update heirLive (fun _ => rfl) clear
      root := (if_pos top).symm
      size := arena.size_update _ _
      slots := ?_ }
  · intro parent present
    rw [dead] at present
    cases present
  · intro id
    refine (arena.live?_reparent heir.id id old.parent).trans ?_
    unfold rehung
    by_cases isHeir : id = heir.id
    · simp only [isHeir, if_true]
    · by_cases isParent : id = old.parent
      · simp [isParent, dead]
      · simp [isHeir, isParent]

theorem rehangs_at_parent {old heir parent : Node} {children : List Int}
    (cleared : arena.Cleared) (clear : arena.ClearAt old.parent)
    (heirLive : arena.live? heir.id = some heir)
    (notParent : heir.id ≠ old.parent)
    (parentLive : arena.live? old.parent = some parent)
    (found : replaceFirst old.id heir.id parent.children = some children) :
    Rehangs arena old heir children ((arena.update heir.id fun node =>
      { node with parent := old.parent }).update old.parent fun node =>
        { node with children := children }) := by
  have notTop := Arena.live?_ne_noParent parentLive
  let hung := arena.update heir.id fun node =>
    { node with parent := old.parent }
  have hungCleared : hung.Cleared :=
    cleared.update heirLive (fun _ => rfl) clear
  have hungSlots : ∀ id, hung.live? id = _ :=
    fun id => arena.live?_reparent heir.id id old.parent
  have hungParent : hung.live? old.parent = some parent := by
    rw [hungSlots, if_neg notParent.symm, parentLive]
  have slots : ∀ id, (hung.update old.parent fun node =>
      { node with children := children }).live? id = _ :=
    live?_update_live hungParent fun _ => rfl
  refine
    { replaced := ?_
      cleared := hungCleared.update_below hungParent (fun _ => rfl) rfl
      root := ?_
      size := ?_
      slots := ?_ }
  · intro above present
    rw [parentLive] at present
    cases present
    exact replaceFirst_eq_some found
  · rw [if_neg notTop, Arena.root_update, Arena.root_update]
  · rw [Arena.size_update, Arena.size_update]
  · intro id
    refine (slots id).trans ?_
    rw [hungSlots]
    unfold rehung
    by_cases isHeir : id = heir.id
    · simp [isHeir, notParent]
    · by_cases isParent : id = old.parent
      · simp [isParent, notParent.symm, parentLive]
      · simp [isHeir, isParent]

/-- An inheritance that succeeds hangs the heir up.  It fails below a
tombstone, which lists no children. -/
theorem inherit_rehangs {old heir given : Node} {inherited : Arena}
    (cleared : arena.Cleared) (clear : arena.ClearAt old.parent)
    (heirLive : arena.live? heir.id = some heir)
    (notParent : heir.id ≠ old.parent) (sameId : given.id = heir.id)
    (ran : inherit arena old heir.id given = .ok inherited) :
    ∃ children, Rehangs arena old heir children inherited := by
  unfold inherit at ran
  rw [sameId] at ran
  by_cases top : old.parent = Node.noParent
  · rw [if_pos top] at ran
    cases ran
    exact ⟨[], rehangs_at_root cleared clear heirLive top⟩
  · rw [if_neg top] at ran
    obtain ⟨parent, stored, rest⟩ := Result.bind_eq_ok_iff.mp ran
    split at rest
    next children found =>
      cases rest
      have hungClear : (arena.update heir.id fun node =>
          { node with parent := old.parent }).ClearAt old.parent :=
        clear.update heirLive fun _ => rfl
      have slot := arena.live?_reparent heir.id old.parent old.parent
      rw [if_neg notParent.symm] at slot
      cases live : arena.live? old.parent with
      | none =>
          rw [hungClear.node_of_dead stored (slot.trans live)] at found
          cases found
      | some above =>
          rw [Arena.node_of_live (slot.trans live)] at stored
          cases stored
          exact ⟨children,
            rehangs_at_parent cleared clear heirLive notParent live found⟩
    next => cases rest

theorem buries_of_delete {node found : Node} {buried : Arena}
    (live : arena.live? node.id = some found)
    (ran : arena.delete node = .ok buried) : arena.Buries node.id buried := by
  obtain ⟨again, deleted, buries⟩ := Arena.delete_of_live node live
  rw [deleted] at ran
  cases ran
  exact buries

/-- A squash may give a comparison a new token, and then hoists what it
keeps. -/
inductive Squashes (arena edited : Arena) : Prop where
  | intro {change : Int → Node → Node} {retokened : Arena} {old heir : Node}
      {buried children : List Int}
      (relabels : Relabels arena change retokened)
      (disjunction : ∀ id node, arena.live? id = some node →
        (change id node).token = "or" → node.token = "or")
      (hoists : Hoists retokened old heir buried children edited)

theorem Squashes.edits {edited : Arena} (squashes : Squashes arena edited) :
    Edits arena (Outcome.edited edited).arena := by
  cases squashes with
  | intro relabels _ hoists =>
      apply Edits.report _ hoists.cleared
      exact .tail (.single (.relabel relabels)) (.hoist hoists)

variable {focus slot : Int} {outer inner : Node} {extras : List Int}
  {outcome : Outcome}

theorem first_operand_live (wired : arena.Wired)
    (live : arena.live? focus = some outer)
    (operands : outer.children = slot :: extras)
    (below : arena.node? slot = some inner) :
    outer.id = focus ∧ inner.id = slot ∧ arena.live? slot = some inner ∧
      slot ∈ outer.children := by
  have listed : slot ∈ outer.children := by simp [operands]
  obtain ⟨found, innerLive, _⟩ := wired.children _ outer live slot listed
  rw [Arena.node?_of_live innerLive] at below
  cases below
  exact ⟨wired.ids focus outer live, wired.ids slot inner innerLive,
    innerLive, listed⟩

theorem squashes_of_cancel (wired : arena.Wired)
    (live : arena.live? focus = some outer)
    (operands : outer.children = slot :: extras)
    (below : arena.node? slot = some inner) {heir : Int} {others : List Int}
    (innerOperands : inner.children = heir :: others)
    (ran : cancel arena outer inner heir = .ok outcome) :
    ∃ edited, outcome = .edited edited ∧ Squashes arena edited := by
  obtain ⟨rfl, rfl, innerLive, innerListed⟩ :=
    first_operand_live wired live operands below
  have heirListed : heir ∈ inner.children := by simp [innerOperands]
  obtain ⟨heirNode, heirLive, heirUp⟩ :=
    wired.children _ inner innerLive heir heirListed
  have heirId := wired.ids heir heirNode heirLive
  subst heirId
  have innerUp := wired.parent_of_listed live innerListed innerLive
  have innerOuter := wired.ne_of_listed live innerListed
  have lower : ∀ height, arena.Falls height →
      height heirNode.id < height outer.id := fun height falls =>
    Nat.lt_trans (falls _ inner innerLive _ heirListed)
      (falls _ outer live _ innerListed)
  have heirKept : heirNode.id ∉ [outer.id, inner.id] := by
    intro member
    rcases List.mem_pair.mp member with same | same
    · obtain ⟨height, falls⟩ := wired.grounded
      have twice := lower height falls
      rw [same] at twice
      exact Nat.lt_irrefl _ twice
    · exact wired.ne_of_listed innerLive heirListed same
  obtain ⟨given, inherited, first, buried, givenFound, inheritedEq, firstEq,
    buriedEq, rfl⟩ := exists_of_cancel ran
  rw [Arena.node?_of_live heirLive] at givenFound
  cases givenFound
  obtain ⟨children, rehangs⟩ := inherit_rehangs wired.cleared
    (wired.cleared _ outer live) heirLive
    (wired.ne_parent_of_lower live heirLive lower) rfl inheritedEq
  have buriesOuter := buries_of_delete (rehangs.live live) firstEq
  have innerStill : first.live? inner.id = inherited.live? inner.id := by
    rw [buriesOuter.live?, if_neg innerOuter]
  have buriesInner :=
    buries_of_delete (innerStill.trans (rehangs.live innerLive)) buriedEq
  have hoists : Hoists arena outer heirNode [outer.id, inner.id] children
      buried :=
    { oldLive := live
      heirLive := heirLive
      oldBuried := List.mem_cons_self
      heirBelow := by simp [heirUp]
      heirKept := heirKept
      between := by
        intro id member
        rcases List.mem_pair.mp member with same | rfl
        · exact .inl same
        · exact .inr ⟨inner, innerLive, by simp [innerUp]⟩
      lower := lower
      replaced := rehangs.replaced
      cleared := (rehangs.cleared.bury buriesOuter).bury buriesInner
      root := by rw [buriesInner.root, buriesOuter.root, rehangs.root]
      size := by rw [buriesInner.size, buriesOuter.size, rehangs.size]
      slots := by
        intro id
        rw [buriesInner.live?, buriesOuter.live?, rehangs.slots]
        by_cases isInner : id = inner.id
        · simp [isInner]
        · by_cases isOuter : id = outer.id
          · simp [isOuter]
          · simp [isInner, isOuter] }
  exact ⟨buried, rfl,
    .intro (relabels_self wired.cleared) (fun _ _ _ same => same) hoists⟩

theorem isOperator_negated {token negated : String}
    (found : negatedComparison? token = some negated) :
    Node.isOperator negated = true := by
  rcases negatedComparison?_eq_some_iff.mp found with ⟨_, rfl⟩ | ⟨_, rfl⟩
  all_goals rfl

theorem negated_ne_or {token negated : String}
    (found : negatedComparison? token = some negated) : negated ≠ "or" := by
  rcases negatedComparison?_eq_some_iff.mp found with ⟨_, rfl⟩ | ⟨_, rfl⟩
  all_goals decide

theorem squashes_of_absorb (wired : arena.Wired)
    (live : arena.live? focus = some outer)
    (operands : outer.children = slot :: extras)
    (below : arena.node? slot = some inner) {token : String}
    (opposite : negatedComparison? inner.token = some token)
    (ran : absorb arena outer inner slot token = .ok outcome) :
    ∃ edited, outcome = .edited edited ∧ Squashes arena edited := by
  obtain ⟨rfl, rfl, innerLive, innerListed⟩ :=
    first_operand_live wired live operands below
  let retokened := arena.update inner.id fun node =>
    { node with token := token }
  have relabels : Relabels arena _ retokened :=
    relabels_update wired.cleared innerLive (fun _ => rfl) rfl (.refl _)
      (.inr (isOperator_negated opposite))
  have retokenedWired := relabels.wired wired
  have slots : ∀ id, retokened.live? id = _ :=
    live?_update_live innerLive fun _ => rfl
  have innerUp := wired.parent_of_listed live innerListed innerLive
  have innerOuter := wired.ne_of_listed live innerListed
  have outerStill : retokened.live? outer.id = some outer := by
    rw [slots, if_neg innerOuter.symm, live]
  let heir : Node := { inner with token := token }
  have heirLive : retokened.live? heir.id = some heir := by
    rw [slots]
    exact if_pos rfl
  have lower : ∀ height, retokened.Falls height →
      height heir.id < height outer.id := fun height falls =>
    falls _ outer outerStill _ innerListed
  obtain ⟨inherited, buried, inheritedEq, buriedEq, rfl⟩ :=
    exists_of_absorb ran
  obtain ⟨children, rehangs⟩ := inherit_rehangs retokenedWired.cleared
    (retokenedWired.cleared _ outer outerStill) heirLive
    (retokenedWired.ne_parent_of_lower outerStill heirLive lower)
    rfl inheritedEq
  have buries := buries_of_delete (rehangs.live outerStill) buriedEq
  have hoists : Hoists retokened outer heir [outer.id] children buried :=
    { oldLive := outerStill
      heirLive := heirLive
      oldBuried := List.mem_cons_self
      heirBelow := by simp [heir, innerUp]
      heirKept := by simpa [heir] using innerOuter
      between := fun id member => .inl (List.mem_singleton.mp member)
      lower := lower
      replaced := rehangs.replaced
      cleared := rehangs.cleared.bury buries
      root := by rw [buries.root, rehangs.root]
      size := by rw [buries.size, rehangs.size]
      slots := by
        intro id
        rw [buries.live?, rehangs.slots]
        simp only [List.mem_singleton] }
  refine ⟨buried, rfl, .intro relabels ?_ hoists⟩
  intro id node _ disjunction
  split at disjunction
  · exact absurd disjunction (negated_ne_or opposite)
  · exact disjunction

end Squash

/-- A branch of a disjunction becomes a premise.  The disjunction is live, since
the tombstone is none. -/
theorem implies_of_imply {arena : Arena} (wired : arena.Wired) {focus : Int}
    {node parent : Node} {outcome : Outcome}
    (live : arena.live? focus = some node)
    (above : arena.parentOf node = .ok (some parent))
    (disjunction : parent.token = "or")
    (ran : imply arena focus node parent = .ok outcome) :
    ∃ implied, outcome = .edited implied ∧
      Implies arena (Label.ofNode parent) parent.parent focus
        parent.children implied := by
  have parentLive : arena.live? node.parent = some parent := by
    rcases live_or_tombstone_of_parentOf wired.cleared live above with
      here | rfl
    · exact here
    · exact absurd disjunction (by decide)
  have branches := branches_of_wired wired live parentLive
  obtain ⟨implied, runs, root, cleared, slots⟩ := branches.imply_eq_ok
    (wired.ids focus node live) (wired.ids _ parent parentLive).symm
  rw [Label.node_ofNode, ran] at runs
  cases runs
  exact ⟨implied, rfl,
    { slot := branches.slot
      listed := wired.listed focus node parent live parentLive
      cleared := cleared wired.cleared
      root := root
      slots := slots }⟩

/-- Every rule but the replacement of texts makes edits. -/
theorem edits_of_run {action : Action} {arena : Arena} {focus : Int}
    {node : Node} {params : Json.Members} {condition : Condition}
    {outcome : Outcome} (wired : arena.Wired)
    (live : arena.live? focus = some node) (notReplace : action ≠ .replace)
    (ran : action.run arena focus params condition = .ok outcome) :
    Edits arena outcome.arena := by
  cases change_at_live live ran with
  | skip => exact .refl
  | toggle flag => exact toggle_edits flag wired live
  | flip flips binary => exact flip_edits wired live flips binary
  | move asked above allowed place moved =>
      exact move_edits wired live above allowed moved
  | cancel negation operands below double innerOperands ran =>
      obtain ⟨edited, rfl, squashes⟩ :=
        squashes_of_cancel wired live operands below innerOperands ran
      exact squashes.edits
  | absorb negation operands below opposite ran =>
      obtain ⟨edited, rfl, squashes⟩ :=
        squashes_of_absorb wired live operands below opposite ran
      exact squashes.edits
  | imply above isDisjunction ran =>
      obtain ⟨implied, rfl, implies⟩ :=
        implies_of_imply wired live above isDisjunction ran
      exact Edits.report (.single (.imply implies)) implies.cleared
  | replace => exact absurd rfl notReplace

end FormulaEdit.Rule
