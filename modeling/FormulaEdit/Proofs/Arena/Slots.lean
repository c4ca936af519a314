import FormulaEdit.Arena.Basic
import FormulaEdit.Proofs.Result

/-!
# Live slots

An arena is seen through the function that gives the live node of an id.  Each
operation on an arena is described by what it does to this function, so that
later proofs never look into the array of slots.
-/

namespace FormulaEdit

namespace Arena

theorem map_slots_eq_self {arena : Arena} {change : Node → Node}
    (kept : ∀ node ∈ arena.slots.toList, change node = node) :
    arena.slots.map change = arena.slots := by
  apply Array.ext'
  rw [Array.toList_map]
  exact (List.map_congr_left kept).trans (List.map_id _)

/-- The node of an id, unless it was deleted. -/
def live? (arena : Arena) (id : Int) : Option Node :=
  (arena.node? id).filter (·.isLive)

theorem live?_eq_some_iff {arena : Arena} {id : Int} {node : Node} :
    arena.live? id = some node ↔
      arena.node? id = some node ∧ node.isLive = true := by
  simp [live?, Option.filter_eq_some_iff]

theorem node?_of_live {arena : Arena} {id : Int} {node : Node}
    (live : arena.live? id = some node) : arena.node? id = some node :=
  (live?_eq_some_iff.mp live).1

theorem node_of_live {arena : Arena} {id : Int} {node : Node}
    (live : arena.live? id = some node) : arena.node id = .ok node :=
  (arena.node_eq_ok_iff id node).mpr (node?_of_live live)

theorem node?_eq_some_iff {arena : Arena} {id : Int} {node : Node} :
    arena.node? id = some node ↔
      0 ≤ id ∧ arena.slots[id.toNat]? = some node := by
  unfold node?
  by_cases negative : id < 0
  · simp [negative, Int.not_le.mpr negative]
  · simp [negative, Int.not_lt.mp negative]

theorem node?_natCast (arena : Arena) (slot : Nat) :
    arena.node? (slot : Int) = arena.slots[slot]? := by
  have notNegative : ¬((slot : Int) < 0) := by omega
  simp [node?, notNegative]

theorem node?_bounds {arena : Arena} {id : Int} {node : Node}
    (found : arena.node? id = some node) : 0 ≤ id ∧ id < arena.size := by
  obtain ⟨lower, slot⟩ := node?_eq_some_iff.mp found
  obtain ⟨upper, _⟩ := Array.getElem?_eq_some_iff.mp slot
  have size : arena.size = arena.slots.size := rfl
  omega

theorem live?_bounds {arena : Arena} {id : Int} {node : Node}
    (live : arena.live? id = some node) : 0 ≤ id ∧ id < arena.size :=
  node?_bounds (node?_of_live live)

theorem live?_ne_noParent {arena : Arena} {id : Int} {node : Node}
    (live : arena.live? id = some node) : id ≠ Node.noParent := by
  have bounds := live?_bounds live
  unfold Node.noParent
  omega

theorem mem_liveNodes_iff {arena : Arena} {node : Node} :
    node ∈ arena.liveNodes ↔ ∃ id, arena.live? id = some node := by
  simp only [liveNodes, List.mem_filter, Array.mem_toList_iff,
    live?_eq_some_iff]
  constructor
  · rintro ⟨member, live⟩
    obtain ⟨slot, upper, found⟩ := Array.mem_iff_getElem.mp member
    refine ⟨(slot : Int), ?_, live⟩
    rw [node?_natCast]
    exact Array.getElem?_eq_some_iff.mpr ⟨upper, found⟩
  · rintro ⟨id, found, live⟩
    exact ⟨Array.mem_of_getElem? (node?_eq_some_iff.mp found).2, live⟩

/-- A change that keeps the id of a node is seen at its slot only. -/
theorem live?_update (arena : Arena) (id other : Int) {change : Node → Node}
    (keepsId : ∀ node, (change node).id = node.id) :
    (arena.update id change).live? other =
      if other = id then (arena.live? other).map change
      else arena.live? other := by
  have keepsLive : ∀ node, (change node).isLive = node.isLive := by
    intro node
    simp [Node.isLive, keepsId]
  unfold live?
  rw [node?_update]
  by_cases same : other = id
  · cases found : arena.node? other with
    | none => simp [same]
    | some node => simp [same, Option.filter, keepsLive, apply_ite]
  · simp [same]

theorem exists_slots_split {arena : Arena} {id : Int} {node : Node}
    (live : arena.live? id = some node) :
    ∃ before after, arena.slots.toList = before ++ node :: after ∧
      ∀ change, (arena.update id change).slots.toList =
        before ++ change node :: after := by
  obtain ⟨lower, stored⟩ := node?_eq_some_iff.mp (node?_of_live live)
  rw [← Array.getElem?_toList] at stored
  obtain ⟨inside, found⟩ := List.getElem?_eq_some_iff.mp stored
  refine ⟨arena.slots.toList.take id.toNat,
    arena.slots.toList.drop (id.toNat + 1), ?_, ?_⟩
  · rw [← found, ← List.drop_eq_getElem_cons inside, List.take_append_drop]
  · intro change
    rw [update, if_neg (Int.not_lt.mpr lower)]
    simp [List.modify_eq_take_cons_drop inside, found]

theorem update_congr {arena : Arena} {id : Int} {node : Node}
    (live : arena.live? id = some node) {first second : Node → Node}
    (same : first node = second node) :
    arena.update id first = arena.update id second := by
  obtain ⟨before, after, _, slots⟩ := exists_slots_split live
  have slotsSame : (arena.update id first).slots =
      (arena.update id second).slots := by
    apply Array.ext'
    rw [slots first, slots second, same]
  have notNegative := Int.not_lt.mpr (live?_bounds live).1
  unfold update at slotsSame ⊢
  rw [if_neg notNegative, if_neg notNegative] at slotsSame ⊢
  rw [Arena.mk.injEq]
  exact ⟨slotsSame, rfl, rfl⟩

theorem live?_reparent (arena : Arena) (id other parent : Int) :
    (arena.update id fun node => { node with parent := parent }).live? other =
      if other = id then
        (arena.live? other).map fun node => { node with parent := parent }
      else arena.live? other :=
  arena.live?_update id other fun _ => rfl

theorem node?_push (arena : Arena) (token : String) (parent : Int)
    (children : List Int) (span : Span) (other : Int) :
    (arena.push token parent children span).node? other =
      if other = arena.size then
        some { id := arena.size, token := token, parent := parent
               children := children, span := span }
      else arena.node? other := by
  unfold node?
  by_cases negative : other < 0
  · have apart : other ≠ arena.size := by omega
    simp [negative, apart]
  · have index : other.toNat = arena.slots.size ↔ other = arena.size := by
      unfold size
      omega
    simp only [negative, if_false, push, Array.getElem?_push, index]

theorem live?_push (arena : Arena) (token : String) (parent : Int)
    (children : List Int) (span : Span) (other : Int) :
    (arena.push token parent children span).live? other =
      if other = arena.size then
        some { id := arena.size, token := token, parent := parent
               children := children, span := span }
      else arena.live? other := by
  unfold live?
  rw [node?_push]
  by_cases new : other = arena.size
  · have alive : ((arena.size : Int) == Node.deletedId) = false := by
      simp only [Node.deletedId, beq_eq_false_iff_ne]
      omega
    simp [new, Option.filter, Node.isLive, bne, alive]
  · simp [new]

@[simp] theorem root_push (arena : Arena) (token : String) (parent : Int)
    (children : List Int) (span : Span) :
    (arena.push token parent children span).root = arena.root := rfl

@[simp] theorem live?_refresh (arena : Arena) (id : Int) :
    arena.refresh.live? id = arena.live? id := rfl

/-- One slot of an arena was given a tombstone. -/
structure Buries (arena : Arena) (id : Int) (buried : Arena) : Prop where
  root : buried.root = arena.root
  size : buried.size = arena.size
  slots : ∀ other, buried.node? other =
    if other = id then some Node.tombstone else arena.node? other

theorem Buries.live? {arena buried : Arena} {id : Int}
    (buries : arena.Buries id buried) (other : Int) :
    buried.live? other = if other = id then none else arena.live? other := by
  unfold Arena.live?
  rw [buries.slots]
  by_cases same : other = id
  · simp only [same, if_true]
    rfl
  · simp [same]

theorem delete_of_live {arena : Arena} (node : Node) {found : Node}
    (present : arena.live? node.id = some found) :
    ∃ buried, arena.delete node = .ok buried ∧
      arena.Buries node.id buried := by
  have bounds := live?_bounds present
  have slot : arena.slotOf? node.id = some node.id.toNat := by
    have inside : node.id.toNat < arena.size := by omega
    simp [slotOf?, Int.not_lt.mpr bounds.1, inside]
  refine ⟨{ arena with slots :=
      arena.slots.modify node.id.toNat fun _ => Node.tombstone },
    by simp only [delete, slot], rfl, by simp [size], ?_⟩
  intro other
  by_cases same : other = node.id
  · obtain ⟨_, stored⟩ := node?_eq_some_iff.mp (node?_of_live present)
    subst same
    simp [node?, Int.not_lt.mpr bounds.1, Array.getElem?_modify, stored]
  · simp only [node?, same, if_false]
    by_cases negative : other < 0
    · simp [negative]
    · have apart : node.id.toNat ≠ other.toNat := by omega
      simp [negative, Array.getElem?_modify, apart]

/-! ## Dead slots -/

/-- The slot of an id is live or holds the tombstone. -/
def ClearAt (arena : Arena) (id : Int) : Prop :=
  ∀ node, arena.node? id = some node →
    arena.live? id = some node ∨ node = Node.tombstone

theorem clearAt_of_live {arena : Arena} {id : Int} {node : Node}
    (live : arena.live? id = some node) : arena.ClearAt id := by
  intro found present
  rw [node?_of_live live] at present
  cases present
  exact .inl live

namespace ClearAt

variable {arena : Arena} {other : Int}

theorem update (clear : arena.ClearAt other) {id : Int} {found : Node}
    (live : arena.live? id = some found) {change : Node → Node}
    (keepsId : ∀ node, (change node).id = node.id) :
    (arena.update id change).ClearAt other := by
  by_cases same : other = id
  · subst same
    apply clearAt_of_live
    rw [live?_update arena _ _ keepsId, if_pos rfl, live, Option.map_some]
  · intro node present
    rw [node?_update, if_neg same] at present
    rw [live?_update arena _ _ keepsId, if_neg same]
    exact clear node present

theorem push (clear : arena.ClearAt other) (token : String) (parent : Int)
    (children : List Int) (span : Span) :
    (arena.push token parent children span).ClearAt other := by
  intro node present
  rw [node?_push] at present
  rw [live?_push]
  split at present
  next new => exact .inl ((if_pos new).trans present)
  next old =>
    rw [if_neg old]
    exact clear node present

theorem bury (clear : arena.ClearAt other) {id : Int} {buried : Arena}
    (buries : arena.Buries id buried) : buried.ClearAt other := by
  intro node present
  rw [buries.slots] at present
  rw [buries.live?]
  split at present
  next =>
    cases present
    exact .inr rfl
  next kept =>
    rw [if_neg kept]
    exact clear node present

theorem node_of_dead (clear : arena.ClearAt other) {node : Node}
    (found : arena.node other = .ok node) (dead : arena.live? other = none) :
    node = Node.tombstone := by
  rcases clear node ((arena.node_eq_ok_iff other node).mp found) with
    live | same
  · rw [dead] at live
    cases live
  · exact same

end ClearAt

/-- Above a live node stands a live one or the tombstone. -/
def Cleared (arena : Arena) : Prop :=
  ∀ id node, arena.live? id = some node → arena.ClearAt node.parent

namespace Cleared

variable {arena : Arena}

theorem update (cleared : arena.Cleared) {id : Int} {found : Node}
    (live : arena.live? id = some found) {change : Node → Node}
    (keepsId : ∀ node, (change node).id = node.id)
    (clear : arena.ClearAt (change found).parent) :
    (arena.update id change).Cleared := by
  intro other node present
  rw [live?_update arena id other keepsId] at present
  by_cases same : other = id
  · rw [if_pos same, same, live] at present
    cases present
    exact clear.update live keepsId
  · rw [if_neg same] at present
    exact (cleared other node present).update live keepsId

theorem update_below (cleared : arena.Cleared) {id : Int} {found : Node}
    (live : arena.live? id = some found) {change : Node → Node}
    (keepsId : ∀ node, (change node).id = node.id)
    (keepsParent : (change found).parent = found.parent) :
    (arena.update id change).Cleared := by
  apply cleared.update live keepsId
  rw [keepsParent]
  exact cleared id found live

theorem push (cleared : arena.Cleared) (token : String) {parent : Int}
    (clear : arena.ClearAt parent) (children : List Int) (span : Span) :
    (arena.push token parent children span).Cleared := by
  intro other node present
  rw [live?_push] at present
  split at present
  · cases present
    exact clear.push token parent children span
  · exact (cleared other node present).push token parent children span

theorem bury (cleared : arena.Cleared) {id : Int} {buried : Arena}
    (buries : arena.Buries id buried) : buried.Cleared := by
  intro other node present
  rw [buries.live?] at present
  split at present
  · cases present
  · exact (cleared other node present).bury buries

end Cleared

end Arena

end FormulaEdit
