import FormulaEdit.Proofs.Rule.InPlace

/-!
# Disjunctions as implications

Making a branch of a disjunction a premise adds two slots, hangs every operand
under one of them and reuses the slot of the disjunction.  The arena presents
the rewritten tree afterwards.
-/

namespace FormulaEdit.Rule

/-- Adopting live nodes succeeds and changes nothing but their parent. -/
theorem adopt_eq_ok {arena : Arena} (parent : Int) {ids : List Int}
    (present : ∀ id ∈ ids, ∃ node, arena.live? id = some node) :
    ∃ adopted, adopt parent arena ids = .ok adopted ∧
      adopted.root = arena.root ∧
      (arena.ClearAt parent → arena.Cleared → adopted.Cleared) ∧
      ∀ id, adopted.live? id =
        if id ∈ ids then
          (arena.live? id).map fun node => { node with parent := parent }
        else arena.live? id := by
  induction ids generalizing arena with
  | nil => exact ⟨arena, rfl, rfl, fun _ cleared => cleared, by simp⟩
  | cons first ids induction =>
      let hung := arena.update first fun node => { node with parent := parent }
      have hungSlots := fun id => arena.live?_reparent first id parent
      obtain ⟨node, live⟩ := present first List.mem_cons_self
      have hungPresent : ∀ id ∈ ids, ∃ node, hung.live? id = some node := by
        intro id member
        obtain ⟨node, live⟩ := present id (List.mem_cons_of_mem first member)
        rw [hungSlots, live]
        split <;> exact ⟨_, rfl⟩
      obtain ⟨adopted, adoptedEq, root, cleared, slots⟩ :=
        induction hungPresent
      refine ⟨adopted, ?_, ?_, ?_, ?_⟩
      · exact Result.bind_eq_ok_iff.mpr
          ⟨node, Arena.node_of_live live, adoptedEq⟩
      · rw [root, Arena.root_update]
      · intro clear before
        exact cleared (clear.update live fun _ => rfl)
          (before.update live (fun _ => rfl) clear)
      · intro id
        rw [slots, hungSlots]
        by_cases same : id = first
        · subst same
          by_cases again : id ∈ ids
          · simp [again, Option.map_map, Function.comp_def]
          · simp [again]
        · simp [same]

/-- What stands in the slots after a branch became a premise. -/
def implySlots (arena : Arena) (label : Label) (parent branch : Int)
    (others : List Int) (id : Int) : Option Node :=
  if id = label.id then
    some ({ label with token := "=>" }.node parent
      [(arena.size : Int), ((arena.size + 1 : Nat) : Int)])
  else if id = arena.size then
    some ((Tree.added arena.size "not").node label.id [branch])
  else if id = ((arena.size + 1 : Nat) : Int) then
    some ((Tree.added (arena.size + 1) "or").node label.id others)
  else if id = branch then
    (arena.live? id).map fun node => { node with parent := arena.size }
  else if id ∈ others then
    (arena.live? id).map fun node =>
      { node with parent := ((arena.size + 1 : Nat) : Int) }
  else arena.live? id

/-- A live node whose operands are a branch and others, all of them live and
listed once. -/
structure Branches (arena : Arena) (label : Label) (parent branch : Int)
    (children others : List Int) : Prop where
  slot : arena.live? label.id = some (label.node parent children)
  branchLive : ∃ node, arena.live? branch = some node
  othersLive : ∀ id ∈ others, ∃ node, arena.live? id = some node
  filtered : children.filter (· != branch) = others
  notBranch : label.id ≠ branch
  notOther : label.id ∉ others

/-- The premise is added, and the branch hangs under it. -/
def premised (arena : Arena) (disjunction branch : Int) : Arena :=
  (arena.push "not" disjunction [branch] .unknown).update branch fun node =>
    { node with parent := arena.size }

/-- A conclusion without operands is added as well. -/
def prepared (arena : Arena) (disjunction branch : Int) : Arena :=
  (premised arena disjunction branch).push "or" disjunction [] .unknown

/-- The conclusion, behind all slots of an arena of a given size, gets its
operands. -/
def filled (size : Nat) (others : List Int) (adopted : Arena) : Arena :=
  adopted.update ((size : Int) + 1) fun node => { node with children := others }

/-- The disjunction becomes the implication. -/
def concluded (size : Nat) (disjunction : Int) (others : List Int)
    (adopted : Arena) : Arena :=
  (filled size others adopted).update disjunction fun node =>
    { node with token := "=>", children := [(size : Int), (size : Int) + 1] }

theorem live?_filled (size : Nat) (others : List Int) (adopted : Arena)
    (id : Int) :
    (filled size others adopted).live? id =
      if id = (size : Int) + 1 then
        (adopted.live? id).map fun node => { node with children := others }
      else adopted.live? id :=
  adopted.live?_update _ id fun _ => rfl

theorem live?_concluded (size : Nat) (disjunction : Int) (others : List Int)
    (adopted : Arena) (id : Int) :
    (concluded size disjunction others adopted).live? id =
      if id = disjunction then
        ((filled size others adopted).live? id).map fun node =>
          { node with token := "=>"
                      children := [(size : Int), (size : Int) + 1] }
      else (filled size others adopted).live? id :=
  (filled size others adopted).live?_update _ id fun _ => rfl

namespace Branches

variable {arena : Arena} {label : Label} {parent branch : Int}
  {children others : List Int}
  (branches : Branches arena label parent branch children others)

include branches

theorem label_lt : label.id < arena.size :=
  (Arena.live?_bounds branches.slot).2

theorem branch_lt : branch < arena.size := by
  obtain ⟨node, live⟩ := branches.branchLive
  exact (Arena.live?_bounds live).2

theorem other_lt {id : Int} (member : id ∈ others) : id < arena.size := by
  obtain ⟨node, live⟩ := branches.othersLive id member
  exact (Arena.live?_bounds live).2

theorem branch_notMem : branch ∉ others := by
  rw [← branches.filtered]
  simp

theorem live?_prepared (id : Int) :
    (prepared arena label.id branch).live? id =
      if id = (arena.size : Int) + 1 then
        some ((Tree.added (arena.size + 1) "or").node label.id [])
      else if id = branch then
        (arena.live? id).map fun node => { node with parent := arena.size }
      else if id = arena.size then
        some ((Tree.added arena.size "not").node label.id [branch])
      else arena.live? id := by
  have branchOld := branches.branch_lt
  rw [prepared, premised, Arena.live?_push, Arena.size_update,
    Arena.size_push, Arena.live?_reparent, Arena.live?_push]
  by_cases same : id = branch
  · have old : id ≠ arena.size := by omega
    rw [if_pos same, if_pos same, if_neg old]
    rfl
  · rw [if_neg same, if_neg same]
    rfl

theorem live?_prepared_other {id : Int} (member : id ∈ others) :
    (prepared arena label.id branch).live? id = arena.live? id := by
  have old := branches.other_lt member
  have notBranch : id ≠ branch := by
    rintro rfl
    exact branches.branch_notMem member
  rw [branches.live?_prepared, if_neg (by omega), if_neg notBranch,
    if_neg (by omega)]

theorem prepared_cleared (cleared : arena.Cleared) :
    (prepared arena label.id branch).Cleared := by
  obtain ⟨node, live⟩ := branches.branchLive
  have old := branches.branch_lt
  have labelClear : arena.ClearAt label.id :=
    Arena.clearAt_of_live branches.slot
  have branchLive : (arena.push "not" label.id [branch] .unknown).live?
      branch = some node := by
    rw [Arena.live?_push, if_neg (by omega), live]
  have premiseLive : (arena.push "not" label.id [branch] .unknown).live?
      arena.size = some _ :=
    (Arena.live?_push ..).trans (if_pos rfl)
  have premisedCleared : (premised arena label.id branch).Cleared :=
    (cleared.push "not" labelClear [branch] .unknown).update branchLive
      (fun _ => rfl) (Arena.clearAt_of_live premiseLive)
  have premisedClear : (premised arena label.id branch).ClearAt label.id :=
    (labelClear.push "not" label.id [branch] .unknown).update branchLive
      fun _ => rfl
  exact premisedCleared.push "or" premisedClear [] .unknown

section Adopted

variable {adopted : Arena}
  (slots : ∀ id, adopted.live? id =
    if id ∈ others then
      ((prepared arena label.id branch).live? id).map fun node =>
        { node with parent := (arena.size : Int) + 1 }
    else (prepared arena label.id branch).live? id)

include slots

theorem conclusion_live : adopted.live? ((arena.size : Int) + 1) =
    some ((Tree.added (arena.size + 1) "or").node label.id []) := by
  have notOther : (arena.size : Int) + 1 ∉ others := by
    intro member
    have bounds := branches.other_lt member
    omega
  rw [slots, if_neg notOther, branches.live?_prepared, if_pos rfl]

theorem disjunction_live :
    adopted.live? label.id = some (label.node parent children) := by
  have old := branches.label_lt
  rw [slots, if_neg branches.notOther, branches.live?_prepared,
    if_neg (by omega), if_neg branches.notBranch, if_neg (by omega),
    branches.slot]

theorem concluded_cleared (cleared : adopted.Cleared) :
    (concluded arena.size label.id others adopted).Cleared := by
  have old := branches.label_lt
  have filledCleared : (filled arena.size others adopted).Cleared :=
    cleared.update_below (branches.conclusion_live slots) (fun _ => rfl) rfl
  have labelLive : (filled arena.size others adopted).live? label.id =
      some (label.node parent children) := by
    rw [live?_filled, if_neg (by omega)]
    exact branches.disjunction_live slots
  exact filledCleared.update_below labelLive (fun _ => rfl) rfl

theorem concluded_slots (id : Int) :
    (concluded arena.size label.id others adopted).live? id =
      implySlots arena label parent branch others id := by
  have labelOld := branches.label_lt
  have branchOld := branches.branch_lt
  have last : ((arena.size + 1 : Nat) : Int) = (arena.size : Int) + 1 := by
    omega
  rw [live?_concluded, live?_filled, implySlots, last]
  by_cases isLabel : id = label.id
  · rw [if_pos isLabel, if_pos isLabel, if_neg (by omega), isLabel,
      branches.disjunction_live slots]
    rfl
  rw [if_neg isLabel, if_neg isLabel]
  by_cases isLast : id = (arena.size : Int) + 1
  · rw [if_pos isLast, if_neg (by omega), if_pos isLast, isLast,
      branches.conclusion_live slots]
    rfl
  rw [if_neg isLast, if_neg isLast, slots]
  by_cases isOther : id ∈ others
  · have old := branches.other_lt isOther
    have notBranch : id ≠ branch := by
      rintro rfl
      exact branches.branch_notMem isOther
    rw [if_pos isOther, branches.live?_prepared_other isOther,
      if_neg (by omega), if_neg notBranch, if_pos isOther]
  rw [if_neg isOther, branches.live?_prepared, if_neg isLast, if_neg isOther]
  by_cases isBranch : id = branch
  · rw [if_pos isBranch, if_neg (by omega), if_pos isBranch]
  · rw [if_neg isBranch, if_neg isBranch]

end Adopted

theorem imply_eq_ok {branchNode : Node} (branchId : branchNode.id = branch)
    (branchParent : branchNode.parent = label.id) :
    ∃ implied, imply arena branch branchNode (label.node parent children) =
        .ok (.edited implied) ∧ implied.root = arena.root ∧
      (arena.Cleared → implied.Cleared) ∧
      ∀ id, implied.live? id =
        implySlots arena label parent branch others id := by
  have othersLive : ∀ id ∈ others,
      ∃ node, (prepared arena label.id branch).live? id = some node := by
    intro id member
    rw [branches.live?_prepared_other member]
    exact branches.othersLive id member
  obtain ⟨adopted, adoptedEq, root, cleared, slots⟩ :=
    adopt_eq_ok ((arena.size : Int) + 1) othersLive
  refine ⟨concluded arena.size label.id others adopted, ?_, ?_, ?_,
    branches.concluded_slots slots⟩
  · simp only [imply, Label.children_node, Label.id_node, branchId,
      branchParent, branches.filtered]
    exact Result.bind_eq_ok_iff.mpr ⟨adopted, adoptedEq, rfl⟩
  · rw [concluded, Arena.root_update, filled, Arena.root_update, root,
      prepared, Arena.root_push, premised, Arena.root_update,
      Arena.root_push]
  · intro before
    have conclusionClear :
        (prepared arena label.id branch).ClearAt ((arena.size : Int) + 1) :=
      Arena.clearAt_of_live
        ((branches.live?_prepared _).trans (if_pos rfl))
    exact branches.concluded_cleared slots
      (cleared conclusionClear (branches.prepared_cleared before))

end Branches

theorem filter_others {before after : List Tree} {branch : Tree}
    (distinct : ((before ++ branch :: after).map Tree.id).Nodup) :
    ((before ++ branch :: after).map Tree.id).filter (· != branch.id) =
      (before ++ after).map Tree.id := by
  have keeps : ∀ trees : List Tree, branch.id ∉ trees.map Tree.id →
      (trees.map Tree.id).filter (· != branch.id) = trees.map Tree.id := by
    intro trees absent
    rw [List.filter_eq_self]
    intro id member
    simp only [bne_iff_ne, ne_eq]
    rintro rfl
    exact absent member
  rw [List.map_append, List.map_cons, List.nodup_append, List.nodup_cons]
    at distinct
  obtain ⟨_, ⟨notAfter, _⟩, apart⟩ := distinct
  have notBefore : branch.id ∉ before.map Tree.id := by
    intro member
    exact apart branch.id member branch.id (by simp) rfl
  simp [List.filter_append, keeps before notBefore, keeps after notAfter]

/-- What a branch of a disjunction is replaced by. -/
def impliedTree (size : Nat) (frame : Frame) (branch : Tree) : Tree :=
  .node { frame.label with token := "=>" }
    [.node (Tree.added size "not") [branch],
      .node (Tree.added (size + 1) "or") (frame.before ++ frame.after)]

theorem ids_implied (size : Nat) (frame : Frame) (branch : Tree)
    (context : Context) :
    (context.plug (impliedTree size frame branch)).ids.Perm
      ((size : Int) :: ((size + 1 : Nat) : Int) ::
        (context.plug (frame.fill branch)).ids) := by
  refine (Context.ids_plug _ _).trans (List.Perm.trans ?_
    (((Context.ids_plug _ _).symm.cons _).cons _))
  simp only [impliedTree, Frame.fill, Tree.ids_node, Tree.idsAll_append,
    Tree.idsAll_cons, Tree.idsAll_nil, Tree.added]
  grind

section Slots

variable {arena implied : Arena} {context : Context} {frame : Frame}
  {branch : Tree}

/-- The slots of an arena after a branch of the frame became a premise. -/
def Implied (arena : Arena) (context : Context) (frame : Frame)
    (branch : Tree) (implied : Arena) : Prop :=
  ∀ id, implied.live? id = implySlots arena frame.label context.parent
    branch.id ((frame.before ++ frame.after).map Tree.id) id

theorem Implied.kept (slots : Implied arena context frame branch implied)
    {id : Int} (old : id < arena.size) (notLabel : id ≠ frame.label.id)
    (notBranch : id ≠ branch.id)
    (notOther : id ∉ (frame.before ++ frame.after).map Tree.id) :
    implied.live? id = arena.live? id := by
  rw [slots, implySlots, if_neg notLabel, if_neg (by omega),
    if_neg (by omega), if_neg notBranch, if_neg notOther]

theorem Implied.holdsAround
    (slots : Implied arena context frame branch implied)
    (presents : arena.Presents (context.plug (frame.fill branch))) :
    implied.HoldsAround context frame.label.id := by
  have apart := Frame.apart presents.distinct
  obtain ⟨around, _⟩ := Arena.holds_plug_iff.mp presents.holds
  refine around.frame ?_
  intro id outside
  refine slots.kept (presents.id_lt
    (Context.mem_ids_plug.mpr (.inr outside))) ?_ ?_ ?_
  · rintro rfl
    exact apart.label_outer outside
  · rintro rfl
    exact apart.tree_outer _ branch.id_mem_ids outside
  · intro member
    exact apart.others_outer id
      ((Tree.map_id_sublist_idsAll _).subset member) outside

theorem Implied.holds_branch
    (slots : Implied arena context frame branch implied)
    (presents : arena.Presents (context.plug (frame.fill branch))) :
    implied.Holds arena.size branch := by
  have apart := Frame.apart presents.distinct
  obtain ⟨_, holds⟩ := Arena.holds_plug_iff.mp presents.holds
  have old : ∀ id ∈ branch.ids, id < arena.size := fun id member =>
    presents.id_lt (Context.mem_ids_plug.mpr
      (.inl (Frame.mem_ids_fill.mpr (.inr (.inl member)))))
  refine (holds.operand_holds branch (by simp)).reparent apart.tree_distinct
    ?_ ?_
  · have rootOld := old branch.id branch.id_mem_ids
    rw [slots, implySlots, if_neg apart.label_ne_root.symm,
      if_neg (by omega), if_neg (by omega), if_pos rfl]
  · intro id member notRoot
    refine slots.kept (old id member) ?_ notRoot ?_
    · rintro rfl
      exact apart.label_tree member
    · intro root
      exact apart.tree_others id member
        ((Tree.map_id_sublist_idsAll _).subset root)

theorem Implied.holds_other
    (slots : Implied arena context frame branch implied)
    (presents : arena.Presents (context.plug (frame.fill branch)))
    {other : Tree} (position : other ∈ frame.before ++ frame.after) :
    implied.Holds ((arena.size + 1 : Nat) : Int) other := by
  have apart := Frame.apart presents.distinct
  obtain ⟨_, holds⟩ := Arena.holds_plug_iff.mp presents.holds
  have inOthers : ∀ id ∈ other.ids,
      id ∈ Tree.idsAll (frame.before ++ frame.after) := fun id member =>
    Tree.mem_idsAll.mpr ⟨other, position, member⟩
  have old : ∀ id ∈ other.ids, id < arena.size := fun id member =>
    presents.id_lt (Context.mem_ids_plug.mpr
      (.inl (Frame.mem_ids_fill.mpr (.inr (.inr (inOthers id member))))))
  have notLabel : ∀ id ∈ other.ids, id ≠ frame.label.id := by
    rintro _ member rfl
    exact apart.label_others (inOthers _ member)
  have notBranch : ∀ id ∈ other.ids, id ≠ branch.id := by
    rintro _ member rfl
    exact apart.tree_others _ branch.id_mem_ids (inOthers _ member)
  refine (holds.operand_holds other (Frame.mem_fill position)).reparent
    (Tree.nodup_ids_of_mem apart.others_distinct position) ?_ ?_
  · have inside := other.id_mem_ids
    have rootOld := old other.id inside
    rw [slots, implySlots, if_neg (notLabel _ inside), if_neg (by omega),
      if_neg (by omega), if_neg (notBranch _ inside),
      if_pos (List.mem_map_of_mem position)]
  · intro id member notRoot
    refine slots.kept (old id member) (notLabel id member)
      (notBranch id member) ?_
    intro root
    exact notRoot
      (Tree.eq_id_of_root apart.others_distinct position member root)

theorem Implied.holds
    (slots : Implied arena context frame branch implied)
    (presents : arena.Presents (context.plug (frame.fill branch))) :
    implied.Holds context.parent (impliedTree arena.size frame branch) := by
  have labelOld : frame.label.id < arena.size :=
    presents.id_lt
      (Context.mem_ids_plug.mpr (.inl (Frame.mem_ids_fill.mpr (.inl rfl))))
  refine .node ?_ ?_
  · rw [slots, implySlots, if_pos rfl]
    rfl
  · simp only [List.forall_mem_cons, List.not_mem_nil, false_implies,
      implies_true, and_true]
    refine ⟨.node ?_ ?_, .node ?_ ?_⟩
    · rw [slots, implySlots, if_neg (by simp only [Tree.added]; omega)]
      simp [Tree.added]
    · simpa [Tree.added] using slots.holds_branch presents
    · rw [slots, implySlots, if_neg (by simp only [Tree.added]; omega),
        if_neg (by simp only [Tree.added]; omega)]
      simp [Tree.added]
    · intro other position
      exact slots.holds_other presents position

/-- The slots that the rule writes hold the implication and nothing else. -/
theorem Implied.presents
    (slots : Implied arena context frame branch implied)
    (root : implied.root = arena.root)
    (presents : arena.Presents (context.plug (frame.fill branch))) :
    implied.Presents
      (context.plug (impliedTree arena.size frame branch)) := by
  have rearranged := ids_implied arena.size frame branch context
  refine
    { root := ?_
      holds := Arena.holds_plug_iff.mpr
        ⟨slots.holdsAround presents, slots.holds presents⟩
      distinct := ?_
      covered := ?_ }
  · rw [root, presents.root]
    exact context.id_plug_congr rfl
  · rw [rearranged.nodup_iff, List.nodup_cons, List.nodup_cons, List.mem_cons]
    refine ⟨?_, ?_, presents.distinct⟩
    · rintro (same | member)
      · omega
      · exact absurd (presents.id_lt member) (by omega)
    · intro member
      exact absurd (presents.id_lt member) (by omega)
  · intro id node live
    rw [rearranged.mem_iff, List.mem_cons, List.mem_cons]
    by_cases first : id = arena.size
    · exact .inl first
    by_cases second : id = ((arena.size + 1 : Nat) : Int)
    · exact .inr (.inl second)
    refine .inr (.inr ?_)
    rw [slots, implySlots] at live
    by_cases isLabel : id = frame.label.id
    · exact Context.mem_ids_plug.mpr (.inl (Frame.mem_ids_fill.mpr (.inl isLabel)))
    rw [if_neg isLabel, if_neg first, if_neg second] at live
    obtain ⟨node, present⟩ : ∃ node, arena.live? id = some node := by
      cases present : arena.live? id with
      | none => simp [present] at live
      | some node => exact ⟨node, rfl⟩
    exact presents.covered id node present

end Slots

theorem premise_rewrote {arena : Arena} {context : Context} {frame : Frame}
    {branch : Tree} {params : Json.Members} {outcome : Outcome}
    {branchNode : Node}
    (presents : arena.Presents (context.plug (frame.fill branch)))
    (disjunction : frame.label.token = "or")
    (branchId : branchNode.id = branch.id)
    (branchParent : branchNode.parent = frame.label.id)
    (ran : imply arena branch.id branchNode (frame.label.node context.parent
      ((frame.before ++ branch :: frame.after).map Tree.id)) = .ok outcome) :
    Rewrote arena (context.plug (frame.fill branch)) .toImplication params
      branch.id outcome := by
  have apart := Frame.apart presents.distinct
  obtain ⟨_, holds⟩ := Arena.holds_plug_iff.mp presents.holds
  have filtered := filter_others
    (Tree.nodup_roots (Context.nodup_plug_iff.mp presents.distinct).1)
  have othersLive : ∀ id ∈ (frame.before ++ frame.after).map Tree.id,
      ∃ node, arena.live? id = some node := by
    intro id member
    obtain ⟨other, position, rfl⟩ := List.mem_map.mp member
    exact ⟨_, (holds.operand_holds other
      (Frame.mem_fill position)).root_live⟩
  have branches : Branches arena frame.label context.parent branch.id
      ((frame.before ++ branch :: frame.after).map Tree.id)
      ((frame.before ++ frame.after).map Tree.id) :=
    { slot := holds.slot
      branchLive := ⟨_, (holds.operand_holds branch (by simp)).root_live⟩
      othersLive := othersLive
      filtered := filtered
      notBranch := apart.label_ne_root
      notOther := apart.label_roots }
  obtain ⟨implied, runs, root, _, slots⟩ :=
    branches.imply_eq_ok branchId branchParent
  rw [runs] at ran
  cases ran
  exact .edited (Implied.presents slots root presents)
    (.imply context frame.before branch frame.after rfl disjunction)

theorem imply_rewrote {arena : Arena} {tree : Tree} {focus : Int}
    {branch disjunction : Node} {outcome : Outcome} (params : Json.Members)
    (presents : arena.Presents tree)
    (live : arena.live? focus = some branch)
    (above : arena.parentOf branch = .ok (some disjunction))
    (isDisjunction : disjunction.token = "or")
    (ran : imply arena focus branch disjunction = .ok outcome) :
    Rewrote arena tree .toImplication params focus outcome := by
  obtain ⟨context, label, operands, rfl, rfl, rfl⟩ :=
    presents.exists_plug live
  obtain ⟨around, _⟩ := Arena.holds_plug_iff.mp presents.holds
  cases context with
  | nil => cases above
  | cons frame outer =>
      rw [Arena.parentOf_of_around around rfl] at above
      cases above
      rw [← List.map_cons, ← List.map_append] at ran
      exact premise_rewrote presents isDisjunction rfl rfl ran

end FormulaEdit.Rule
