import FormulaEdit.Proofs.Rule.InPlace

/-!
# Squashing negations

The heir of a negation is hung into the place of the negation, and what lay
between them is deleted.  The arena then unfolds to the squashed tree.  It
presents that tree unless a deleted negation had more than one operand: the
operands that nobody inherits stay live below a tombstone.
-/

namespace FormulaEdit.Rule

/-- A node hangs in the hole of a context, and everything else is as before. -/
structure Inherits (arena : Arena) (context : Context) (heir : Int)
    (inherited : Arena) : Prop where
  root : ∀ tree : Tree, tree.id = heir →
    inherited.root = (context.plug tree).id
  around : inherited.HoldsAround context heir
  slots : ∀ id, id ∉ context.ids → inherited.live? id =
    if id = heir then
      (arena.live? id).map fun node => { node with parent := context.parent }
    else arena.live? id
  live : ∀ id node, inherited.live? id = some node →
    ∃ before, arena.live? id = some before

theorem replaceFirst_append {before after : List Int} {old : Int} (item : Int)
    (first : old ∉ before) :
    replaceFirst old item (before ++ old :: after) =
      some (before ++ item :: after) := by
  induction before with
  | nil => simp [replaceFirst]
  | cons head before induction =>
      rw [List.mem_cons, not_or] at first
      simp [replaceFirst, Ne.symm first.1, induction first.2]

/-- The node of a slot hangs under another parent. -/
def hung (arena : Arena) (heir parent : Int) : Arena :=
  arena.update heir fun node => { node with parent := parent }

/-- The node around the hole of a frame lists the id that fills the hole. -/
def refilled (arena : Arena) (frame : Frame) (heir : Int) : Arena :=
  arena.update frame.label.id fun node =>
    { node with
      children := frame.before.map Tree.id ++ heir :: frame.after.map Tree.id }

section Inherit

variable {arena : Arena} {context : Context} {old : Tree} {heir : Int}

theorem live?_hung (arena : Arena) (heir parent id : Int) :
    (hung arena heir parent).live? id =
      if id = heir then
        (arena.live? id).map fun node => { node with parent := parent }
      else arena.live? id :=
  arena.live?_reparent heir id parent

theorem exists_live_of_hung {parent id : Int} {node : Node}
    (live : (hung arena heir parent).live? id = some node) :
    ∃ before, arena.live? id = some before := by
  rw [live?_hung] at live
  split at live
  · obtain ⟨before, found, _⟩ := Option.map_eq_some_iff.mp live
    exact ⟨before, found⟩
  · exact ⟨node, live⟩

theorem hung_around (unfolds : arena.Unfolds (context.plug old))
    (inside : heir ∈ old.ids) (parent : Int) :
    (hung arena heir parent).HoldsAround context old.id := by
  obtain ⟨around, _⟩ := Arena.holds_plug_iff.mp unfolds.holds
  refine around.frame ?_
  intro id outside
  have different : id ≠ heir := by
    rintro rfl
    exact unfolds.apart id inside outside
  rw [live?_hung, if_neg different]

section Frame

variable {frame : Frame} {outer : Context} {hole : Int}

theorem live?_refilled (around : arena.HoldsAround (frame :: outer) hole)
    (heir id : Int) :
    (refilled arena frame heir).live? id =
      if id = frame.label.id then
        some (frame.label.node (Context.parent outer)
          (frame.before.map Tree.id ++ heir :: frame.after.map Tree.id))
      else arena.live? id := by
  refine live?_update_live around.1 ?_ id
  exact fun _ => rfl

theorem refilled_around (around : arena.HoldsAround (frame :: outer) hole)
    (distinct : (Context.ids (frame :: outer)).Nodup) (heir : Int) :
    (refilled arena frame heir).HoldsAround (frame :: outer) heir := by
  rw [Context.ids_cons, List.cons_append, List.nodup_cons] at distinct
  have rest : ∀ id, id ∈ Tree.idsAll frame.before ++
      Tree.idsAll frame.after ++ Context.ids outer →
      (refilled arena frame heir).live? id = arena.live? id := by
    intro id member
    have different : id ≠ frame.label.id := by
      rintro rfl
      exact distinct.1 member
    rw [live?_refilled around, if_neg different]
  refine ⟨?_, ?_, ?_, ?_⟩
  · rw [live?_refilled around, if_pos rfl]
  · intro tree member
    refine (around.2.1 tree member).frame ?_
    intro id inTree
    exact rest id (by
      simp only [List.mem_append, Tree.mem_idsAll]
      exact .inl (.inl ⟨tree, member, inTree⟩))
  · intro tree member
    refine (around.2.2.1 tree member).frame ?_
    intro id inTree
    exact rest id (by
      simp only [List.mem_append, Tree.mem_idsAll]
      exact .inl (.inr ⟨tree, member, inTree⟩))
  · refine around.2.2.2.frame ?_
    intro id outside
    exact rest id (by simp [outside])

theorem inherits_at_frame
    (unfolds : arena.Unfolds (Context.plug (frame :: outer) old))
    (inside : heir ∈ old.ids) :
    Inherits arena (frame :: outer) heir
      (refilled (hung arena heir frame.label.id) frame heir) := by
  have around := hung_around unfolds inside frame.label.id
  refine
    { root := ?_
      around := refilled_around around
        (Context.nodup_plug_iff.mp unfolds.distinct).2.1 heir
      slots := ?_
      live := ?_ }
  · intro tree same
    rw [refilled, Arena.root_update, hung, Arena.root_update, unfolds.root]
    exact Context.id_plug_congr outer rfl
  · intro id outside
    have different : id ≠ frame.label.id := by
      rintro rfl
      exact outside (by simp)
    rw [live?_refilled around, if_neg different, live?_hung]
    rfl
  · intro id node present
    rw [live?_refilled around] at present
    split at present
    next same =>
      rw [same]
      exact exists_live_of_hung around.1
    next => exact exists_live_of_hung present

end Frame

/-- Inheriting the place of a subtree succeeds and refills the hole. -/
theorem inherit_of_unfolds (unfolds : arena.Unfolds (context.plug old))
    (inside : heir ∈ old.ids) (children : List Int) {heirNode : Node}
    (sameId : heirNode.id = heir) :
    ∃ inherited,
      inherit arena (old.label.node context.parent children) heir heirNode =
        .ok inherited ∧
      Inherits arena context heir inherited := by
  subst sameId
  cases context with
  | nil =>
      refine ⟨{ hung arena heirNode.id Node.noParent with
        root := heirNode.id }, ?_, ?_⟩
      · simp only [inherit, Label.parent_node, Context.parent_nil, if_true]
        rfl
      · exact
          { root := fun tree same => same.symm
            around := trivial
            slots := fun id _ => live?_hung arena heirNode.id _ id
            live := fun id node live => exists_live_of_hung live }
  | cons frame outer =>
      have around := hung_around unfolds inside frame.label.id
      have notTop : frame.label.id ≠ Node.noParent :=
        Arena.live?_ne_noParent around.1
      have first : old.id ∉ frame.before.map Tree.id :=
        (Frame.apart unfolds.distinct).root_before
      refine ⟨_, ?_, inherits_at_frame unfolds inside⟩
      simp only [inherit, Label.parent_node, Context.parent_cons, notTop,
        if_false]
      refine Result.bind_eq_ok_iff.mpr ⟨_, Arena.node_of_live around.1, ?_⟩
      simp only [Label.id_node, Label.children_node]
      rw [show old.label.id = old.id from rfl,
        replaceFirst_append heirNode.id first]
      rfl

end Inherit

/-- The arena unfolds to the refilled context as soon as only slots outside
of it are buried. -/
theorem Inherits.unfolds {arena inherited buried : Arena} {context : Context}
    {old heir : Tree} {parent : Int}
    (inherits : Inherits arena context heir.id inherited)
    (unfolds : arena.Unfolds (context.plug old))
    (heirHolds : arena.Holds parent heir) (heirDistinct : heir.ids.Nodup)
    (inside : ∀ id ∈ heir.ids, id ∈ old.ids)
    (root : buried.root = inherited.root)
    (same : ∀ id, id ∈ heir.ids ∨ id ∈ context.ids →
      buried.live? id = inherited.live? id) :
    buried.Unfolds (context.plug heir) := by
  have apart := unfolds.apart
  have contextDistinct := (Context.nodup_plug_iff.mp unfolds.distinct).2.1
  refine .of_plug ?_ ?_ ?_ ?_
  · rw [root]
    exact inherits.root heir rfl
  · exact inherits.around.frame fun id outside => same id (.inr outside)
  · refine heirHolds.reparent heirDistinct ?_ ?_
    · have outside := apart heir.id (inside _ heir.id_mem_ids)
      rw [same heir.id (.inl heir.id_mem_ids), inherits.slots _ outside,
        if_pos rfl]
    · intro id member notRoot
      have outside := apart id (inside id member)
      rw [same id (.inl member), inherits.slots id outside, if_neg notRoot]
  · exact Context.nodup_plug_iff.mpr
      ⟨heirDistinct, contextDistinct,
        fun id member => apart id (inside id member)⟩

/-- Squashing a negation loses operands when the negation, or the negation
directly below it, has more than one. -/
def LosesOperands (arena : Arena) (outer : Node) : Prop :=
  1 < outer.children.length ∨
    ∃ slot inner, outer.children.head? = some slot ∧
      arena.node? slot = some inner ∧ inner.token = "not" ∧
      1 < inner.children.length

/-- A live node hangs below a tombstone. -/
def Orphaned (arena : Arena) : Prop :=
  ∃ node ∈ arena.liveNodes, arena.node? node.parent = some Node.tombstone

/-- What a squash leaves behind: an arena that unfolds to the squashed tree,
and that presents it unless operands were lost. -/
def Squashed (arena : Arena) (before : Tree) (params : Json.Members)
    (focus : Int) (lost : Prop) (outcome : Outcome) : Prop :=
  outcome.changed = true ∧ ∃ after, outcome.arena.Unfolds after ∧
    Rewrites params focus arena.size .squashNegation before after ∧
    (¬lost → outcome.arena.Presents after) ∧
    (lost → Orphaned outcome.arena)

theorem Squashed.edited {arena edited : Arena} {before after : Tree}
    {params : Json.Members} {focus : Int} {lost : Prop}
    (unfolds : edited.Unfolds after)
    (rewrites :
      Rewrites params focus arena.size .squashNegation before after)
    (covered : ¬lost →
      ∀ id node, edited.live? id = some node → id ∈ after.ids)
    (orphaned : lost → Orphaned edited) :
    Squashed arena before params focus lost (.edited edited) := by
  refine ⟨rfl, after, unfolds.refresh, rewrites, ?_, ?_⟩
  · intro kept
    exact { unfolds.refresh with covered := covered kept }
  · intro gone
    obtain ⟨node, live, parent⟩ := orphaned gone
    exact ⟨node, live, parent⟩

/-- An operand that nobody inherits keeps its slot, and so its parent. -/
theorem Inherits.orphaned {arena inherited buried : Arena} {context : Context}
    {heir : Int} (inherits : Inherits arena context heir inherited)
    {parent : Int} {extra : Tree} (holds : arena.Holds parent extra)
    (outside : extra.id ∉ context.ids) (notHeir : extra.id ≠ heir)
    (kept : buried.live? extra.id = inherited.live? extra.id)
    (tombstone : buried.node? parent = some Node.tombstone) :
    Orphaned buried := by
  rw [inherits.slots extra.id outside, if_neg notHeir, holds.root_live] at kept
  exact ⟨_, Arena.mem_liveNodes_iff.mpr ⟨_, kept⟩, tombstone⟩

section Cancel

variable {arena : Arena} {context : Context} {outer inner : Label}
  {heir : Tree} {others extras : List Tree}

theorem apart_outer
    (distinct : (context.plug
      (.node outer (.node inner (heir :: others) :: extras))).ids.Nodup) :
    Frame.Apart ⟨outer, [], extras⟩ context
      (.node inner (heir :: others)) :=
  Frame.apart distinct

theorem apart_inner
    (distinct : (context.plug
      (.node outer (.node inner (heir :: others) :: extras))).ids.Nodup) :
    Frame.Apart ⟨inner, [], others⟩ (⟨outer, [], extras⟩ :: context) heir :=
  Frame.apart distinct

theorem cancel_eq_ok
    (presents : arena.Presents (context.plug
      (.node outer (.node inner (heir :: others) :: extras))))
    (outerChildren innerChildren : List Int) :
    ∃ inherited first buried,
      cancel arena (outer.node context.parent outerChildren)
        (inner.node outer.id innerChildren) heir.id = .ok (.edited buried) ∧
      Inherits arena context heir.id inherited ∧
      inherited.Buries outer.id first ∧ first.Buries inner.id buried := by
  obtain ⟨_, outerHolds⟩ := Arena.holds_plug_iff.mp presents.holds
  have innerHolds := outerHolds.operand_holds _ List.mem_cons_self
  have heirHolds := innerHolds.operand_holds _ List.mem_cons_self
  have above := apart_outer presents.distinct
  have below := apart_inner presents.distinct
  have heirMember := heir.id_mem_ids
  have outerInner : outer.id ≠ inner.id := above.label_ne_root
  have outerHeir : outer.id ≠ heir.id := by
    intro same
    exact above.label_tree (by simp [same, heirMember])
  obtain ⟨inherited, inheritedEq, inherits⟩ :=
    inherit_of_unfolds presents.toUnfolds
      (by simp [heirMember]) outerChildren
      (show (heir.label.node inner.id (heir.operands.map Tree.id)).id =
        heir.id from rfl)
  have outerLive : inherited.live? outer.id = arena.live? outer.id := by
    rw [inherits.slots outer.id above.label_outer, if_neg outerHeir]
  have innerLive : inherited.live? inner.id = arena.live? inner.id := by
    rw [inherits.slots inner.id (above.tree_outer inner.id (by simp)),
      if_neg below.label_ne_root]
  obtain ⟨first, firstEq, buriesOuter⟩ := Arena.delete_of_live
    (outer.node context.parent outerChildren)
    (outerLive.trans outerHolds.slot)
  have innerStill : first.live? inner.id = arena.live? inner.id := by
    rw [buriesOuter.live?, Label.id_node, if_neg outerInner.symm, innerLive]
  obtain ⟨buried, buriedEq, buriesInner⟩ := Arena.delete_of_live
    (inner.node outer.id innerChildren) (innerStill.trans innerHolds.slot)
  refine ⟨inherited, first, buried, ?_, inherits, buriesOuter, buriesInner⟩
  refine Result.bind_eq_ok_iff.mpr
    ⟨_, Arena.node_of_live heirHolds.root_live, ?_⟩
  refine Result.bind_eq_ok_iff.mpr ⟨inherited, inheritedEq, ?_⟩
  refine Result.bind_eq_ok_iff.mpr ⟨first, firstEq, ?_⟩
  exact Result.bind_eq_ok_iff.mpr ⟨buried, buriedEq, rfl⟩

section Buried

variable {inherited first buried : Arena}
  (presents : arena.Presents (context.plug
    (.node outer (.node inner (heir :: others) :: extras))))
  (inherits : Inherits arena context heir.id inherited)
  (buriesOuter : inherited.Buries outer.id first)
  (buriesInner : first.Buries inner.id buried)

include buriesOuter buriesInner

theorem live?_both_buried (id : Int) :
    buried.live? id =
      if id = inner.id then none
      else if id = outer.id then none else inherited.live? id := by
  rw [buriesInner.live?, buriesOuter.live?]

theorem live?_not_buried {id : Int} (notInner : id ≠ inner.id)
    (notOuter : id ≠ outer.id) : buried.live? id = inherited.live? id := by
  rw [live?_both_buried buriesOuter buriesInner, if_neg notInner,
    if_neg notOuter]

include presents inherits

theorem cancelled_unfolds : buried.Unfolds (context.plug heir) := by
  obtain ⟨_, outerHolds⟩ := Arena.holds_plug_iff.mp presents.holds
  have innerHolds := outerHolds.operand_holds _ List.mem_cons_self
  have heirHolds := innerHolds.operand_holds _ List.mem_cons_self
  have above := apart_outer presents.distinct
  have below := apart_inner presents.distinct
  refine inherits.unfolds presents.toUnfolds heirHolds below.tree_distinct
    ?_ ?_ ?_
  · intro id member
    simp [member]
  · rw [buriesInner.root, buriesOuter.root]
  · rintro id (member | outside)
    · refine live?_not_buried buriesOuter buriesInner ?_ ?_
      · rintro rfl
        exact below.label_tree member
      · rintro rfl
        exact above.label_tree (by simp [member])
    · refine live?_not_buried buriesOuter buriesInner ?_ ?_
      · rintro rfl
        exact above.tree_outer inner.id (by simp) outside
      · rintro rfl
        exact above.label_outer outside

/-- The further operands of both negations hang below tombstones. -/
theorem cancelled_orphaned (lost : extras ≠ [] ∨ others ≠ []) :
    Orphaned buried := by
  obtain ⟨_, outerHolds⟩ := Arena.holds_plug_iff.mp presents.holds
  have innerHolds := outerHolds.operand_holds _ List.mem_cons_self
  have above := apart_outer presents.distinct
  have below := apart_inner presents.distinct
  have untouched : ∀ id, id ≠ inner.id → id ≠ outer.id →
      buried.live? id = inherited.live? id :=
    fun id => live?_not_buried buriesOuter buriesInner
  rcases lost with extra | other
  · obtain ⟨tree, rest, rfl⟩ := List.exists_cons_of_ne_nil extra
    have member : tree.id ∈ Tree.idsAll ([] ++ tree :: rest) := by
      simp [tree.id_mem_ids]
    have notInside : ∀ id ∈ (Tree.node inner (heir :: others)).ids,
        tree.id ≠ id := by
      rintro id inside rfl
      exact above.tree_others _ inside member
    have tombstone : buried.node? outer.id = some Node.tombstone := by
      rw [buriesInner.slots, buriesOuter.slots, if_pos rfl]
      exact if_neg above.label_ne_root
    refine inherits.orphaned (outerHolds.operand_holds tree (by simp))
      (above.others_outer tree.id member)
      (notInside heir.id (by simp [heir.id_mem_ids]))
      (untouched tree.id (notInside inner.id (by simp)) ?_) tombstone
    intro same
    exact above.label_others (same ▸ member)
  · obtain ⟨tree, rest, rfl⟩ := List.exists_cons_of_ne_nil other
    have member : tree.id ∈ Tree.idsAll ([] ++ tree :: rest) := by
      simp [tree.id_mem_ids]
    have outside := below.others_outer tree.id member
    rw [Context.ids_cons, List.cons_append, List.mem_cons, not_or,
      List.mem_append, not_or] at outside
    have tombstone : buried.node? inner.id = some Node.tombstone := by
      rw [buriesInner.slots, if_pos rfl]
    refine inherits.orphaned (innerHolds.operand_holds tree (by simp))
      outside.2.2 ?_ (untouched tree.id ?_ outside.1) tombstone
    · intro same
      exact below.tree_others heir.id heir.id_mem_ids (same ▸ member)
    · intro same
      exact below.label_others (same ▸ member)

end Buried

theorem cancel_squashed {params : Json.Members} {outcome : Outcome}
    (presents : arena.Presents (context.plug
      (.node outer (.node inner (heir :: others) :: extras))))
    (outerToken : outer.token = "not") (innerToken : inner.token = "not")
    {outerChildren innerChildren : List Int}
    (ran : cancel arena (outer.node context.parent outerChildren)
      (inner.node outer.id innerChildren) heir.id = .ok outcome) :
    Squashed arena
      (context.plug (.node outer (.node inner (heir :: others) :: extras)))
      params outer.id (extras ≠ [] ∨ others ≠ []) outcome := by
  obtain ⟨inherited, first, buried, runs, inherits, buriesOuter,
    buriesInner⟩ := cancel_eq_ok presents outerChildren innerChildren
  rw [runs] at ran
  cases ran
  refine .edited
    (cancelled_unfolds presents inherits buriesOuter buriesInner)
    (.cancel context heir others extras rfl outerToken innerToken) ?_
    (cancelled_orphaned presents inherits buriesOuter buriesInner)
  intro kept id node live
  obtain ⟨rfl, rfl⟩ : extras = [] ∧ others = [] := by
    simpa [not_or] using kept
  rw [live?_both_buried buriesOuter buriesInner] at live
  split at live
  · cases live
  split at live
  · cases live
  next notInner notOuter =>
    obtain ⟨before, present⟩ := inherits.live id node live
    have member := presents.covered id before present
    rw [Context.mem_ids_plug] at member ⊢
    simpa [notInner, notOuter] using member

end Cancel

section Absorb

variable {arena : Arena} {context : Context} {outer inner : Label}
  {operands extras : List Tree}

theorem presents_retokened {context : Context} {label : Label}
    {operands : List Tree} (token : String)
    (presents : arena.Presents (context.plug (.node label operands))) :
    (arena.update label.id fun node => { node with token := token }).Presents
      (context.plug (.node { label with token := token } operands)) := by
  have holds := (Arena.holds_plug_iff.mp presents.holds).2
  exact presents.relabel rfl (List.Perm.refl operands)
    (arena.root_update _ _) (live?_update_live holds.slot fun _ => rfl)

theorem absorb_eq_ok (token : String)
    (presents : arena.Presents (context.plug
      (.node outer (.node inner operands :: extras))))
    (outerChildren innerChildren : List Int) :
    ∃ retokened inherited buried,
      absorb arena (outer.node context.parent outerChildren)
        (inner.node outer.id innerChildren) inner.id token =
          .ok (.edited buried) ∧
      retokened.Presents (context.plug
        (.node outer (.node { inner with token := token } operands ::
          extras))) ∧
      Inherits retokened context inner.id inherited ∧
      inherited.Buries outer.id buried := by
  let retokened := arena.update inner.id fun node =>
    { node with token := token }
  have retokenedPresents : retokened.Presents
      (Context.plug (⟨outer, [], extras⟩ :: context)
        (.node { inner with token := token } operands)) :=
    presents_retokened token presents
  change retokened.Presents (context.plug
    (.node outer (.node { inner with token := token } operands :: extras)))
      at retokenedPresents
  obtain ⟨_, outerHolds⟩ := Arena.holds_plug_iff.mp retokenedPresents.holds
  have apart : Frame.Apart ⟨outer, [], extras⟩ context
      (.node { inner with token := token } operands) :=
    Frame.apart retokenedPresents.distinct
  obtain ⟨inherited, inheritedEq, inherits⟩ :=
    inherit_of_unfolds retokenedPresents.toUnfolds (by simp) outerChildren
      (show (inner.node outer.id innerChildren).id = inner.id from rfl)
  have outerLive :
      inherited.live? outer.id = retokened.live? outer.id := by
    rw [inherits.slots outer.id apart.label_outer]
    exact if_neg apart.label_ne_root
  obtain ⟨buried, buriedEq, buriesOuter⟩ := Arena.delete_of_live
    (outer.node context.parent outerChildren)
    (outerLive.trans outerHolds.slot)
  refine ⟨retokened, inherited, buried, ?_, retokenedPresents, inherits,
    buriesOuter⟩
  refine Result.bind_eq_ok_iff.mpr ⟨inherited, inheritedEq, ?_⟩
  exact Result.bind_eq_ok_iff.mpr ⟨buried, buriedEq, rfl⟩

theorem absorb_squashed {token : String} {params : Json.Members}
    {outcome : Outcome}
    (presents : arena.Presents (context.plug
      (.node outer (.node inner operands :: extras))))
    (outerToken : outer.token = "not")
    (opposite : inner.token = "<" ∧ token = ">=" ∨
      inner.token = ">" ∧ token = "<=")
    {outerChildren innerChildren : List Int}
    (ran : absorb arena (outer.node context.parent outerChildren)
      (inner.node outer.id innerChildren) inner.id token = .ok outcome) :
    Squashed arena
      (context.plug (.node outer (.node inner operands :: extras)))
      params outer.id (extras ≠ []) outcome := by
  obtain ⟨retokened, inherited, buried, runs, retokenedPresents, inherits,
    buriesOuter⟩ := absorb_eq_ok token presents outerChildren innerChildren
  rw [runs] at ran
  cases ran
  obtain ⟨_, outerHolds⟩ := Arena.holds_plug_iff.mp retokenedPresents.holds
  have innerHolds := outerHolds.operand_holds _ List.mem_cons_self
  have apart : Frame.Apart ⟨outer, [], extras⟩ context
      (.node { inner with token := token } operands) :=
    Frame.apart retokenedPresents.distinct
  have untouched : ∀ id, id ≠ outer.id →
      buried.live? id = inherited.live? id := by
    intro id notOuter
    rw [buriesOuter.live?, if_neg notOuter]
  refine .edited ?_ (.absorb context operands extras rfl outerToken opposite)
    ?_ ?_
  · refine Inherits.unfolds inherits retokenedPresents.toUnfolds innerHolds
      apart.tree_distinct ?_ buriesOuter.root ?_
    · intro id member
      rw [Tree.ids_node, Tree.idsAll_cons]
      exact List.mem_cons_of_mem _ (List.mem_append.mpr (.inl member))
    · rintro id (member | outside)
      · refine untouched id ?_
        rintro rfl
        exact apart.label_tree member
      · refine untouched id ?_
        rintro rfl
        exact apart.label_outer outside
  · intro kept id node live
    obtain rfl : extras = [] := by simpa using kept
    rw [buriesOuter.live?] at live
    split at live
    · cases live
    next notOuter =>
      obtain ⟨before, present⟩ := inherits.live id node live
      have member := retokenedPresents.covered id before present
      rw [Context.mem_ids_plug] at member ⊢
      simpa [notOuter] using member
  · intro extra
    obtain ⟨tree, rest, rfl⟩ := List.exists_cons_of_ne_nil extra
    have member : tree.id ∈ Tree.idsAll ([] ++ tree :: rest) := by
      simp [tree.id_mem_ids]
    refine inherits.orphaned (outerHolds.operand_holds tree (by simp))
      (apart.others_outer tree.id member) ?_ (untouched tree.id ?_) ?_
    · intro same
      exact apart.tree_others inner.id (by simp) (same ▸ member)
    · intro same
      exact apart.label_others (same ▸ member)
    · rw [buriesOuter.slots, if_pos rfl]

end Absorb

theorem negatedComparison?_eq_some_iff {token negated : String} :
    negatedComparison? token = some negated ↔
      token = "<" ∧ negated = ">=" ∨ token = ">" ∧ negated = "<=" := by
  unfold negatedComparison?
  grind

theorem losesOperands_iff {arena : Arena} {outer inner : Label}
    {operands extras : List Tree}
    (holds : arena.Holds outer.id (.node inner operands)) (parent : Int) :
    LosesOperands arena (outer.node parent
        ((Tree.node inner operands :: extras).map Tree.id)) ↔
      extras ≠ [] ∨ inner.token = "not" ∧ 1 < operands.length := by
  have found := Arena.node?_of_live holds.slot
  have more : 1 < (inner.id :: extras.map Tree.id).length ↔
      extras ≠ [] := by
    cases extras <;> simp
  simp only [LosesOperands, Label.children_node, List.map_cons, Tree.id_node,
    more, List.head?_cons, Option.some.injEq]
  constructor
  · rintro (extra | ⟨slot, node, rfl, present, token, many⟩)
    · exact .inl extra
    · rw [found] at present
      cases present
      exact .inr ⟨token, by simpa using many⟩
  · rintro (extra | ⟨token, many⟩)
    · exact .inl extra
    · exact .inr ⟨inner.id, _, rfl, found, token, by simpa using many⟩

section Change

variable {arena : Arena} {tree : Tree} {focus slot : Int} {outer inner : Node}
  {extras : List Int} {outcome : Outcome}

theorem exists_first_operand (presents : arena.Presents tree)
    (live : arena.live? focus = some outer)
    (operands : outer.children = slot :: extras)
    (below : arena.node? slot = some inner) :
    ∃ (context : Context) (label first : Label) (trees rest : List Tree),
      tree = context.plug (.node label (.node first trees :: rest)) ∧
      label.id = focus ∧ first.id = slot ∧
      outer = label.node context.parent
        ((Tree.node first trees :: rest).map Tree.id) ∧
      inner = first.node label.id (trees.map Tree.id) ∧
      arena.Holds label.id (.node first trees) := by
  obtain ⟨context, label, all, rfl, rfl, rfl⟩ := presents.exists_plug live
  obtain ⟨⟨first, trees⟩, rest, rfl, rfl, rfl⟩ :=
    List.map_eq_cons_iff.mp operands
  obtain ⟨_, holds⟩ := Arena.holds_plug_iff.mp presents.holds
  have firstHolds := holds.operand_holds _ List.mem_cons_self
  rw [Tree.id_node, Arena.node?_of_live firstHolds.slot] at below
  cases below
  exact ⟨context, label, first, trees, rest, rfl, rfl, rfl, rfl, rfl,
    firstHolds⟩

theorem squashed_of_cancel {heir : Int} {others : List Int}
    (params : Json.Members) (presents : arena.Presents tree)
    (live : arena.live? focus = some outer) (negation : outer.token = "not")
    (operands : outer.children = slot :: extras)
    (below : arena.node? slot = some inner) (double : inner.token = "not")
    (innerOperands : inner.children = heir :: others)
    (ran : cancel arena outer inner heir = .ok outcome) :
    Squashed arena tree params focus (LosesOperands arena outer) outcome := by
  obtain ⟨context, label, first, trees, rest, rfl, rfl, rfl, rfl, rfl,
    firstHolds⟩ := exists_first_operand presents live operands below
  obtain ⟨heir, trees, rfl, rfl, rfl⟩ := List.map_eq_cons_iff.mp innerOperands
  have many : 1 < (heir :: trees).length ↔ trees ≠ [] := by
    cases trees <;> simp
  rw [Label.token_node] at double
  rw [losesOperands_iff firstHolds, many]
  simp only [double, true_and]
  exact cancel_squashed presents negation double ran

theorem squashed_of_absorb {token : String} (params : Json.Members)
    (presents : arena.Presents tree) (live : arena.live? focus = some outer)
    (negation : outer.token = "not")
    (operands : outer.children = slot :: extras)
    (below : arena.node? slot = some inner)
    (opposite : negatedComparison? inner.token = some token)
    (ran : absorb arena outer inner slot token = .ok outcome) :
    Squashed arena tree params focus (LosesOperands arena outer) outcome := by
  obtain ⟨context, label, first, trees, rest, rfl, rfl, rfl, rfl, rfl,
    firstHolds⟩ := exists_first_operand presents live operands below
  have known := negatedComparison?_eq_some_iff.mp opposite
  have single : first.token ≠ "not" := by
    rcases known with ⟨same, _⟩ | ⟨same, _⟩
    all_goals
      rw [Label.token_node] at same
      rw [same]
      decide
  rw [losesOperands_iff firstHolds]
  simp only [single, false_and, or_false]
  exact absorb_squashed presents negation known ran

end Change

end FormulaEdit.Rule
