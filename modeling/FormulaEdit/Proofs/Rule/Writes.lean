import FormulaEdit.Proofs.Rule.Squash
import Mathlib.Logic.Relation

/-!
# What rules write

A rule changes an arena by a few kinds of writes.  They are listed here once,
with what each of them leaves alone, for any focus: it may be a dead slot, and
the links of the arena may be broken.  What every write keeps is then kept by
every rule, and by every run of rules.
-/

namespace FormulaEdit

theorem Node.isPlainList_of_ne {node : Node}
    (headed : node.token ≠ Node.listMarker) : node.isPlainList = false := by
  simp [Node.isPlainList, headed]

/-- What a write may do to the node of a slot.  A plain list stays one and no
other node becomes one, a token is not emptied, a tombstone keeps the token
that tells it from an operator, and only some flags may be toggled. -/
structure Node.Turns (allowed : Flag → Prop) (before after : Node) :
    Prop where
  id : after.id = before.id
  plain : after.isPlainList = before.isPlainList
  named : before.token ≠ "" → after.token ≠ ""
  dead : before.isLive = false → before.token = Node.tombstone.token →
    after.token = Node.tombstone.token
  flags : ∀ flag, ¬allowed flag → flag.get after = flag.get before

namespace Node.Turns

variable {allowed : Flag → Prop} {node : Node}

theorem refl (node : Node) : node.Turns allowed node :=
  ⟨rfl, rfl, fun named => named, fun _ same => same, fun _ _ => rfl⟩

theorem rehang (node : Node) (parent : Int) :
    node.Turns allowed { node with parent := parent } where
  id := rfl
  plain := rfl
  named := fun named => named
  dead := fun _ same => same
  flags := by
    intro flag _
    cases flag <;> rfl

/-- A flag that may be toggled is, and the other one stays. -/
theorem toggle {flag : Flag} (may : allowed flag) (node : Node) :
    node.Turns allowed (flag.toggle.touched node) where
  id := flag.toggle.id_touched node
  plain := by cases flag <;> rfl
  named := by cases flag <;> exact fun named => named
  dead := by cases flag <;> exact fun _ same => same
  flags := by
    intro other forbidden
    have different : other ≠ flag := by
      rintro rfl
      exact forbidden may
    exact Flag.get_touched_of_ne different node

/-- The token and the operands of a node that is headed by an operator may
change if it is headed by one again. -/
theorem retoken {token : String} {children : List Int}
    (listless : node.token ≠ Node.listMarker)
    (undead : node.token ≠ Node.tombstone.token)
    (headed : token ≠ Node.listMarker) (named : token ≠ "") :
    node.Turns allowed { node with token := token, children := children } where
  id := rfl
  plain := by
    rw [Node.isPlainList_of_ne listless]
    exact Node.isPlainList_of_ne headed
  named := fun _ => named
  dead := fun _ same => absurd same undead
  flags := by
    intro flag _
    cases flag <;> rfl

/-- Operands may change if the token is no list marker, or if there were and
are some. -/
theorem relink {children : List Int}
    (some : node.token ≠ Node.listMarker ∨
      node.children ≠ [] ∧ children ≠ []) :
    node.Turns allowed { node with children := children } where
  id := rfl
  plain := by
    rcases some with listless | ⟨before, after⟩
    · rw [Node.isPlainList_of_ne listless]
      exact Node.isPlainList_of_ne listless
    · have emptyBefore : node.children.isEmpty = false := by simpa using before
      have emptyAfter : children.isEmpty = false := by simpa using after
      rw [Node.isPlainList, Node.isPlainList, emptyBefore, emptyAfter]
  named := fun named => named
  dead := fun _ same => same
  flags := by
    intro flag _
    cases flag <;> rfl

end Node.Turns

namespace Arena

/-- One write to an arena, which toggles allowed flags only. -/
inductive Write (allowed : Flag → Prop) (arena : Arena) : Arena → Prop where
  | slot {id : Int} {change : Node → Node}
      (turns : ∀ node, arena.node? id = some node →
        node.Turns allowed (change node)) :
      Write allowed arena (arena.update id change)
  | each {nodes : List Node}
      (turns : List.Forall₂ (Node.Turns allowed) arena.slots.toList nodes) :
      Write allowed arena { arena with slots := nodes.toArray }
  | push {token : String} {parent : Int} {children : List Int} {span : Span}
      (headed : token ≠ Node.listMarker) (named : token ≠ "") :
      Write allowed arena (arena.push token parent children span)
  | bury (slot : Nat) :
      Write allowed arena { arena with
        slots := arena.slots.modify slot fun _ => Node.tombstone }
  | root (id : Int) : Write allowed arena { arena with root := id }
  | refresh : Write allowed arena arena.refresh

/-- Writes, one after the other. -/
def Writes (allowed : Flag → Prop) : Arena → Arena → Prop :=
  Relation.ReflTransGen (Write allowed)

/-- What a slot holds after a write: a tombstone, what became of its node, or
a node of its own, which does not break the line. -/
inductive Wrote (allowed : Flag → Prop) (arena : Arena) (id : Int)
    (node : Node) : Prop where
  | buried (dead : node = Node.tombstone)
  | turned {before : Node} (found : arena.node? id = some before)
      (turns : before.Turns allowed node)
  | added (new : arena.size ≤ id) (number : node.id = id)
      (plain : node.isPlainList = false) (named : node.token ≠ "")
      (straight : node.breaksLine = false)

variable {allowed : Flag → Prop} {arena edited : Arena}

namespace Write

theorem size_le (write : arena.Write allowed edited) :
    arena.size ≤ edited.size := by
  cases write with
  | slot turns => exact Nat.le_of_eq (size_update arena _ _).symm
  | each turns =>
      have same := turns.length_eq
      simp only [size, List.size_toArray, ← same, Array.length_toList]
      exact Nat.le_refl _
  | push headed named =>
      rw [size_push]
      exact Nat.le_succ _
  | bury slot => simp [size]
  | root id => exact Nat.le_refl _
  | refresh => exact Nat.le_refl _

theorem wrote (write : arena.Write allowed edited) {id : Int} {node : Node}
    (found : edited.node? id = some node) : arena.Wrote allowed id node := by
  cases write with
  | slot turns =>
      rw [node?_update] at found
      split at found
      next same =>
          obtain ⟨before, present, rfl⟩ := Option.map_eq_some_iff.mp found
          exact .turned present (turns before (same ▸ present))
      next => exact .turned found (.refl node)
  | each turns =>
      obtain ⟨lower, stored⟩ := node?_eq_some_iff.mp found
      rw [List.getElem?_toArray] at stored
      obtain ⟨inside, here⟩ := List.getElem?_eq_some_iff.mp stored
      have before : id.toNat < arena.slots.toList.length := by
        rw [turns.length_eq]
        exact inside
      have present : arena.node? id =
          some arena.slots.toList[id.toNat] := by
        apply node?_eq_some_iff.mpr
        refine ⟨lower, ?_⟩
        rw [← Array.getElem?_toList]
        exact List.getElem?_eq_getElem before
      apply Wrote.turned present
      rw [← here]
      exact turns.get before inside
  | push headed named =>
      rw [node?_push] at found
      split at found
      next new =>
          cases found
          exact .added (Int.le_of_eq new.symm) new.symm
            (Node.isPlainList_of_ne headed) named rfl
      next => exact .turned found (.refl node)
  | bury slot =>
      obtain ⟨lower, stored⟩ := node?_eq_some_iff.mp found
      rw [Array.getElem?_modify] at stored
      split at stored
      · obtain ⟨before, _, same⟩ := Option.map_eq_some_iff.mp stored
        exact .buried same.symm
      · exact .turned (node?_eq_some_iff.mpr ⟨lower, stored⟩) (.refl node)
  | root id => exact .turned found (.refl node)
  | refresh => exact .turned found (.refl node)

end Write

/-! ## Dead slots -/

/-- Every dead slot has the token of the tombstone. -/
def Marked (arena : Arena) : Prop :=
  ∀ id node, arena.node? id = some node → node.isLive = false →
    node.token = Node.tombstone.token

theorem Write.marked (write : arena.Write allowed edited)
    (marked : arena.Marked) : edited.Marked := by
  intro id node found dead
  cases write.wrote found with
  | buried same => rw [same]
  | @turned before present turns =>
      have deadBefore : before.isLive = false := by
        rw [← dead, Node.isLive, Node.isLive, turns.id]
      exact turns.dead deadBefore (marked id before present deadBefore)
  | added new number =>
      have bounds := node?_bounds found
      simp only [Node.isLive, number, Node.deletedId, bne_eq_false_iff_eq]
        at dead
      omega

theorem Writes.marked (writes : arena.Writes allowed edited)
    (marked : arena.Marked) : edited.Marked := by
  induction writes with
  | refl => exact marked
  | tail _ write induction => exact write.marked induction

end Arena

/-! ## The writes of each rule -/

namespace Rule

/-- A rule does nothing, or it writes and then draws the view anew. -/
inductive Wrote (allowed : Flag → Prop) (arena : Arena) : Outcome → Prop where
  | unchanged : Wrote allowed arena (.unchanged arena)
  | edited {edited : Arena} (writes : arena.Writes allowed edited) :
      Wrote allowed arena (.edited edited)

variable {allowed : Flag → Prop} {arena : Arena} {focus : Int}
  {outcome : Outcome}

theorem Wrote.update {id : Int} {change : Node → Node}
    (turns : ∀ node, arena.node? id = some node →
      node.Turns allowed (change node)) :
    Wrote allowed arena (.edited (arena.update id change)) :=
  .edited (.single (.slot turns))

theorem flip_wrote {node : Node} {token : String} {first second : Int}
    (found : arena.node? focus = some node)
    (flips : flippedComparison? node.token = some token) :
    Wrote allowed arena (.edited (arena.update focus fun node =>
      { node with token := token, children := [second, first] })) := by
  apply Wrote.update
  intro before present
  rw [found] at present
  cases present
  have known := flippedComparison?_eq_some_iff.mp flips
  apply Node.Turns.retoken <;> grind [Node.listMarker, Node.tombstone]

theorem parentOf_eq_some {node parent : Node}
    (found : arena.parentOf node = .ok (some parent)) :
    arena.node? node.parent = some parent := by
  unfold Arena.parentOf at found
  split at found
  · cases found
  · obtain ⟨_, present, same⟩ := Result.map_eq_ok_iff.mp found
    cases same
    exact (arena.node_eq_ok_iff _ _).mp present

theorem move_wrote {node parent : Node}
    (above : arena.parentOf node = .ok (some parent))
    (reordered : isReorderable parent.token = true) (children : List Int) :
    Wrote allowed arena (.edited (arena.update node.parent fun node =>
      { node with children := children })) := by
  apply Wrote.update
  intro before present
  rw [parentOf_eq_some above] at present
  cases present
  apply Node.Turns.relink
  left
  intro list
  simp [list, isReorderable, reorderable, Node.listMarker] at reordered

/-! ### Squashing negations -/

theorem replaceFirst_ne_nil {old item : Int} {list changed : List Int}
    (found : replaceFirst old item list = some changed) :
    list ≠ [] ∧ changed ≠ [] := by
  cases list with
  | nil => cases found
  | cons head tail =>
      refine ⟨List.cons_ne_nil head tail, ?_⟩
      unfold replaceFirst at found
      split at found
      · cases found
        exact List.cons_ne_nil _ _
      · obtain ⟨rest, _, rfl⟩ := Option.map_eq_some_iff.mp found
        exact List.cons_ne_nil _ _

theorem write_parent (arena : Arena) (id parent : Int) :
    arena.Write allowed
      (arena.update id fun node => { node with parent := parent }) :=
  .slot fun node _ => .rehang node parent

theorem inherit_writes {old heirNode : Node} {heir : Int} {inherited : Arena}
    (ran : inherit arena old heir heirNode = .ok inherited) :
    arena.Writes allowed inherited := by
  apply Relation.ReflTransGen.head (write_parent arena heir old.parent)
  unfold inherit at ran
  simp only at ran
  split at ran
  next =>
      cases ran
      exact .single (.root heirNode.id)
  next =>
      obtain ⟨parent, found, rest⟩ := Result.bind_eq_ok_iff.mp ran
      have present := (Arena.node_eq_ok_iff _ _ _).mp found
      split at rest
      next children replaced =>
          cases rest
          apply Relation.ReflTransGen.single
          apply Arena.Write.slot
          intro before same
          rw [present] at same
          cases same
          exact .relink (.inr (replaceFirst_ne_nil replaced))
      next => cases rest

theorem delete_write {node : Node} {buried : Arena}
    (ran : arena.delete node = .ok buried) :
    arena.Write allowed buried := by
  unfold Arena.delete at ran
  split at ran
  next slot _ =>
      cases ran
      exact .bury slot
  next => cases ran

theorem cancel_wrote {outer inner : Node} {heir : Int}
    (ran : cancel arena outer inner heir = .ok outcome) :
    Wrote allowed arena outcome := by
  obtain ⟨heirNode, inherited, first, buried, _, hung, outerBuried,
    innerBuried, rfl⟩ := exists_of_cancel ran
  exact .edited (((inherit_writes hung).tail (delete_write outerBuried)).tail
    (delete_write innerBuried))

theorem absorb_wrote {outer inner : Node} {slot : Int} {token : String}
    (below : arena.node? slot = some inner)
    (opposite : negatedComparison? inner.token = some token)
    (ran : absorb arena outer inner slot token = .ok outcome) :
    Wrote allowed arena outcome := by
  obtain ⟨inherited, buried, hung, outerBuried, rfl⟩ := exists_of_absorb ran
  refine .edited (.head (.slot ?_) ((inherit_writes hung).tail
    (delete_write outerBuried)))
  intro before present
  rw [below] at present
  cases present
  have known := negatedComparison?_eq_some_iff.mp opposite
  apply Node.Turns.retoken <;> grind [Node.listMarker, Node.tombstone]

/-! ### Disjunctions as implications -/

/-- A part of the node in a slot. -/
def partAt? {α : Type} (part : Node → α) (arena : Arena) (id : Int) :
    Option α :=
  (arena.node? id).map part

section

variable {α : Type} {part : Node → α}

theorem partAt?_update {id : Int} {change : Node → Node}
    (keeps : ∀ node, part (change node) = part node) (other : Int) :
    partAt? part (arena.update id change) other = partAt? part arena other := by
  unfold partAt?
  rw [Arena.node?_update]
  split
  · rw [Option.map_map]
    exact congrArg (Option.map · _) (funext keeps)
  · rfl

theorem partAt?_push {token : String} {parent : Int} {children : List Int}
    {span : Span} {other : Int} (old : other ≠ arena.size) :
    partAt? part (arena.push token parent children span) other =
      partAt? part arena other := by
  unfold partAt?
  rw [Arena.node?_push, if_neg old]

theorem partAt?_adopt
    (keeps : ∀ node parent, part { node with parent := parent } = part node)
    {parent : Int} {ids : List Int} {adopted : Arena}
    (ran : adopt parent arena ids = .ok adopted) (other : Int) :
    partAt? part adopted other = partAt? part arena other := by
  induction ids generalizing arena with
  | nil =>
      cases ran
      rfl
  | cons id ids induction =>
      obtain ⟨_, _, rest⟩ := Result.bind_eq_ok_iff.mp ran
      rw [induction rest]
      exact partAt?_update (fun node => keeps node parent) other

end

theorem adopt_writes {parent : Int} {ids : List Int} {adopted : Arena}
    (ran : adopt parent arena ids = .ok adopted) :
    arena.Writes allowed adopted := by
  induction ids generalizing arena with
  | nil =>
      cases ran
      exact .refl
  | cons id ids induction =>
      obtain ⟨_, _, rest⟩ := Result.bind_eq_ok_iff.mp ran
      exact .head (write_parent arena id parent) (induction rest)

theorem write_children {id : Int} {token : String}
    (found : partAt? Node.token arena id = some token)
    (headed : token ≠ Node.listMarker) (children : List Int) :
    arena.Write allowed (arena.update id fun node =>
      { node with children := children }) := by
  apply Arena.Write.slot
  intro node present
  rw [partAt?, present] at found
  cases found
  exact .relink (.inl headed)

/-- What an old slot holds when the branches have been adopted, but for
parents. -/
theorem partAt?_branches {α : Type} {part : Node → α}
    (keeps : ∀ node parent, part { node with parent := parent } = part node)
    {parent branch other conclusion : Int} {first second : String}
    {children others : List Int} {adopted : Arena}
    (hung : adopt conclusion
      (((arena.push first parent children .unknown).update focus fun node =>
        { node with parent := arena.size }).push second branch [] .unknown)
      others = .ok adopted)
    (old : other < arena.size + 1) :
    partAt? part adopted other =
      partAt? part (arena.push first parent children .unknown) other := by
  rw [partAt?_adopt keeps hung, partAt?_push]
  · exact partAt?_update (fun node => keeps node arena.size) other
  · rw [Arena.size_update, Arena.size_push]
    omega

theorem imply_wrote {branch disjunction : Node}
    (found : arena.node? branch.parent = some disjunction)
    (isDisjunction : disjunction.token = "or")
    (ran : imply arena focus branch disjunction = .ok outcome) :
    Wrote allowed arena outcome := by
  obtain ⟨adopted, hung, made⟩ := Result.bind_eq_ok_iff.mp ran
  cases made
  have bounds := Arena.node?_bounds found
  have conclusion :
      partAt? Node.token adopted ((arena.size : Int) + 1) = some "or" := by
    rw [partAt?_adopt (fun _ _ => rfl) hung, partAt?, Arena.node?_push,
      if_pos (by simp)]
    rfl
  have above : partAt? Node.token adopted branch.parent = some "or" := by
    rw [partAt?_branches (fun _ _ => rfl) hung (by omega),
      partAt?_push (by omega), partAt?, found, ← isDisjunction]
    rfl
  have before : arena.Writes allowed adopted :=
    .head (.push (by decide) (by decide)) (.head (write_parent _ _ _)
      (.head (.push (by decide) (by decide)) (adopt_writes hung)))
  refine .edited ((before.tail (write_children conclusion (by decide) _)).tail
    (.slot ?_))
  intro node present
  have stillAbove : (some node).map Node.token = some "or" := by
    rw [← above, ← present]
    exact partAt?_update (by intro node; rfl) branch.parent
  have token : node.token = "or" := Option.some.inj stillAbove
  apply Node.Turns.retoken
  · rw [token]
    decide
  · rw [token]
    decide
  · decide
  · decide

theorem imply_premise {branch disjunction : Node}
    (found : arena.node? branch.parent = some disjunction)
    (ran : imply arena focus branch disjunction = .ok outcome) :
    ∃ node, outcome.arena.live? arena.size = some node ∧
      node.children = [branch.id] := by
  obtain ⟨adopted, hung, made⟩ := Result.bind_eq_ok_iff.mp ran
  cases made
  have bounds := Arena.node?_bounds found
  let part : Node → Int × List Int := fun node => (node.id, node.children)
  have premise : partAt? part adopted arena.size =
      some ((arena.size : Int), [branch.id]) := by
    rw [partAt?_branches (fun _ _ => rfl) hung (by omega), partAt?,
      Arena.node?_push, if_pos rfl]
    rfl
  obtain ⟨node, present, parts⟩ := Option.map_eq_some_iff.mp premise
  obtain ⟨number, children⟩ := Prod.mk.inj parts
  refine ⟨node, Arena.live?_eq_some_iff.mpr ⟨?_, ?_⟩, children⟩
  · rw [Outcome.edited, Arena.node?_refresh, Arena.node?_update,
      if_neg (by omega), Arena.node?_update, if_neg (by omega)]
    exact present
  · rw [Node.isLive, number, Node.deletedId, bne_iff_ne]
    omega

/-! ### Replacements -/

theorem onNode_turns {replacement : Replacement} {node updated : Node}
    {flag : Bool} (ran : replacement.onNode node = .ok (flag, updated)) :
    node.Turns allowed updated := by
  unfold Replacement.onNode at ran
  split at ran
  next =>
      cases ran
      exact .refl node
  next replaceable =>
      obtain ⟨text, _, rest⟩ := Result.bind_eq_ok_iff.mp ran
      simp only at rest
      split at rest
      next allowed =>
          cases rest
          simp only [Bool.or_eq_true, Bool.not_eq_true', not_or,
            Bool.not_eq_false, Bool.not_eq_true] at replaceable
          simp only [Replacement.isAllowed, Bool.and_eq_true,
            Bool.not_eq_true', Bool.or_eq_true, bne_iff_ne] at allowed
          obtain ⟨live, listless⟩ := replaceable
          refine ⟨rfl, ?_, ?_, ?_, ?_⟩
          · rw [listless]
            rcases allowed.2 with childless | headed
            · simp [Node.isPlainList, childless]
            · exact Node.isPlainList_of_ne headed
          · intro _ empty
            have full := allowed.1
            rw [show String.ofList text = "" from empty] at full
            exact absurd full (by decide)
          · intro dead
            rw [live] at dead
            cases dead
          · intro flag _
            cases flag <;> rfl
      next => cases rest

theorem onNodes_turns {replacement : Replacement} {nodes updated : List Node}
    {flag : Bool} (ran : replacement.onNodes nodes = .ok (flag, updated)) :
    List.Forall₂ (Node.Turns allowed) nodes updated := by
  induction nodes generalizing flag updated with
  | nil =>
      cases ran
      exact .nil
  | cons node nodes induction =>
      obtain ⟨⟨first, after⟩, head, rest⟩ := Result.bind_eq_ok_iff.mp ran
      obtain ⟨⟨later, afters⟩, tail, result⟩ := Result.bind_eq_ok_iff.mp rest
      cases result
      exact .cons (onNode_turns head) (induction tail)

/-- Every change is made by writes, and only the toggles write flags. -/
theorem Changed.wrote {params : Json.Members} {action : Action}
    (changed : Changed arena focus params action outcome)
    (toggles : ∀ flag : Flag, action = flag.toggle → allowed flag) :
    Wrote allowed arena outcome := by
  obtain ⟨node, found, change⟩ := changed
  cases change with
  | skip => exact .unchanged
  | toggle flag =>
      apply Wrote.update
      intro node _
      exact .toggle (toggles flag rfl) node
  | flip flips binary => exact flip_wrote found flips
  | move asked above reordered place moved =>
      exact move_wrote above reordered _
  | cancel negation operands below double innerOperands ran =>
      exact cancel_wrote ran
  | absorb negation operands below opposite ran =>
      exact absorb_wrote below opposite ran
  | imply above isDisjunction ran =>
      exact imply_wrote (parentOf_eq_some above) isDisjunction ran
  | replace asked replaced =>
      exact .edited (.single (.each (onNodes_turns replaced)))

end Rule

theorem Action.wrote_of_run {action : Action} {arena : Arena} {focus : Int}
    {params : Json.Members} {condition : Condition} {outcome : Outcome}
    (ran : action.run arena focus params condition = .ok outcome) :
    Rule.Wrote (fun _ => True) arena outcome :=
  (Action.changed_of_run ran).wrote fun _ _ => trivial

namespace Arena

/-- One application of a rule to an arena, at any id, whether or not it
reports a change. -/
inductive RuleStep (arena : Arena) : Arena → Prop where
  | run {action : Action} {focus : Int} {params : Json.Members}
      {condition : Condition} {outcome : Outcome}
      (ran : action.run arena focus params condition = .ok outcome) :
      RuleStep arena outcome.arena

theorem RuleStep.writes {arena next : Arena} (step : arena.RuleStep next) :
    arena.Writes (fun _ => True) next := by
  cases step with
  | run ran =>
      cases Action.wrote_of_run ran with
      | unchanged => exact .refl
      | edited writes => exact writes.tail .refresh

theorem writes_of_steps {start arena : Arena}
    (steps : Relation.ReflTransGen RuleStep start arena) :
    start.Writes (fun _ => True) arena := by
  induction steps with
  | refl => exact .refl
  | tail _ step induction => exact Relation.ReflTransGen.trans induction step.writes

end Arena

end FormulaEdit
