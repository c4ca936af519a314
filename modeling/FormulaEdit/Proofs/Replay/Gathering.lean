import FormulaEdit.Proofs.Replay.Plan
import FormulaEdit.Proofs.Rule.Preservation
import FormulaEdit.Proofs.Rule.Reorder
import FormulaEdit.Render

/-!
# Replaying a move

A recorded move admits every node with the token of the moved one.  Where such
a node has no sibling with the same token, each change brings it one place
nearer to its end of the row, past a sibling that is not moved itself, until it
stands there.  Two siblings with the token pass each other for ever: one of
them is not at the end of the row and can be moved.
-/

namespace FormulaEdit

theorem total_eq_zero {α : Type} {weight : α → Nat} {items : List α}
    (weightless : ∀ item ∈ items, weight item = 0) :
    total weight items = 0 := by
  induction items with
  | nil => rfl
  | cons item items induction =>
      rw [List.forall_mem_cons] at weightless
      rw [total, weightless.1, induction weightless.2]

namespace Rule

/-! ## One row of siblings -/

/-- The siblings that stand in the direction of a move. -/
def Direction.ahead : Direction → (before after : List Int) → List Int
  | .left, before, _ => before
  | .right, _, after => after

/-- The marked ids of a row at its end in a direction, and the others in their
order. -/
def gathered (direction : Direction) (marked : Int → Bool) (row : List Int) :
    List Int :=
  match direction with
  | .left => row.filter marked ++ row.filter (!marked ·)
  | .right => row.filter (!marked ·) ++ row.filter marked

/-- How far the first marked id of a row is from the end in a direction. -/
def travel (direction : Direction) (marked : Int → Bool) (row : List Int) :
    Nat :=
  match row.findIdx? marked with
  | none => 0
  | some index =>
      match direction with
      | .left => index
      | .right => row.length - (index + 1)

variable {direction : Direction} {marked : Int → Bool}
  {before after row : List Int} {id : Int}

theorem travel_of_unmarked (unmarked : ∀ other ∈ row, marked other = false) :
    travel direction marked row = 0 := by
  have nowhere : row.findIdx? marked = none :=
    List.findIdx?_eq_none_iff.mpr unmarked
  unfold travel
  rw [nowhere]

theorem travel_append (here : marked id = true)
    (unmarked : ∀ other ∈ before, marked other = false) :
    travel direction marked (before ++ id :: after) =
      (direction.ahead before after).length := by
  have found : (before ++ id :: after).findIdx? marked =
      some before.length := by
    have nowhere : before.findIdx? marked = none :=
      List.findIdx?_eq_none_iff.mpr unmarked
    simp [List.findIdx?_append, nowhere, List.findIdx?_cons, here]
  unfold travel
  rw [found]
  cases direction with
  | left => rfl
  | right =>
      show (before ++ id :: after).length - _ = after.length
      rw [List.length_append, List.length_cons]
      omega

theorem filter_of_unmarked (unmarked : ∀ other ∈ row, marked other = false) :
    row.filter marked = [] ∧ row.filter (!marked ·) = row := by
  rw [List.filter_eq_nil_iff, List.filter_eq_self]
  constructor
  · intro other member
    rw [unmarked other member]
    exact Bool.false_ne_true
  · intro other member
    rw [unmarked other member]
    rfl

theorem gathered_of_unmarked (unmarked : ∀ other ∈ row, marked other = false) :
    gathered direction marked row = row := by
  obtain ⟨none, all⟩ := filter_of_unmarked unmarked
  cases direction with
  | left => rw [gathered, none, all, List.nil_append]
  | right => rw [gathered, none, all, List.append_nil]

/-- Where a single id is marked, the row is gathered by putting it in front of
its siblings or behind them. -/
theorem gathered_append (here : marked id = true)
    (unmarked : ∀ other ∈ before ++ after, marked other = false) :
    gathered direction marked (before ++ id :: after) =
      match direction with
      | .left => id :: (before ++ after)
      | .right => before ++ after ++ [id] := by
  rw [List.forall_mem_append] at unmarked
  obtain ⟨noneBefore, allBefore⟩ := filter_of_unmarked unmarked.1
  obtain ⟨noneAfter, allAfter⟩ := filter_of_unmarked unmarked.2
  cases direction <;>
    simp [gathered, here, noneBefore, allBefore, noneAfter, allAfter]

theorem moved?_eq_none_iff :
    moved? direction before.length (before ++ id :: after) = none ↔
      direction.ahead before after = [] := by
  cases direction with
  | left => simp [moved?, Direction.ahead]
  | right =>
      cases after with
      | nil => simp [moved?, Direction.ahead]
      | cons next after => simp [moved?, Direction.ahead]

/-- A moved id has one sibling less ahead of it, and its siblings keep their
order. -/
theorem moved?_eq_some {moved : List Int}
    (result : moved? direction before.length (before ++ id :: after) =
      some moved) :
    ∃ front back, moved = front ++ id :: back ∧
      front ++ back = before ++ after ∧
      (direction.ahead front back).length + 1 =
        (direction.ahead before after).length := by
  cases direction with
  | left =>
      obtain ⟨front, neighbour, rfl, rfl⟩ := moved?_left_eq_some result
      exact ⟨front, neighbour :: after, rfl, by simp,
        by simp [Direction.ahead]⟩
  | right =>
      obtain ⟨neighbour, rest, rfl, rfl⟩ := moved?_right_eq_some result
      exact ⟨before ++ [neighbour], rest, by simp, by simp,
        by simp [Direction.ahead]⟩

theorem unmarked_of_single (single : (before ++ id :: after).countP marked ≤ 1)
    (here : marked id = true) :
    ∀ other ∈ before ++ after, marked other = false := by
  rw [List.countP_append, List.countP_cons_of_pos here] at single
  have none : (before ++ after).countP marked = 0 := by
    rw [List.countP_append]
    omega
  intro other member
  exact Bool.eq_false_iff.mpr (List.countP_eq_zero.mp none other member)

/-- A single marked id that has one sibling less ahead of it has one step less
to make, and the row is gathered in the same way. -/
theorem gathered_of_nearer {front back : List Int} (here : marked id = true)
    (unmarked : ∀ other ∈ before ++ after, marked other = false)
    (others : front ++ back = before ++ after)
    (nearer : (direction.ahead front back).length + 1 =
      (direction.ahead before after).length) :
    travel direction marked (front ++ id :: back) + 1 =
        travel direction marked (before ++ id :: after) ∧
      gathered direction marked (front ++ id :: back) =
        gathered direction marked (before ++ id :: after) := by
  have unmarkedAfter : ∀ other ∈ front ++ back, marked other = false := by
    rw [others]
    exact unmarked
  rw [gathered_append here unmarked, gathered_append here unmarkedAfter, others,
    travel_append here (List.forall_mem_append.mp unmarked).1,
    travel_append here (List.forall_mem_append.mp unmarkedAfter).1]
  exact ⟨nearer, rfl⟩

theorem eq_of_nothing_ahead {first second : Int}
    {front back : List Int} (rowFirst : row = before ++ first :: after)
    (rowSecond : row = front ++ second :: back)
    (firstEnd : direction.ahead before after = [])
    (secondEnd : direction.ahead front back = []) : first = second := by
  subst rowFirst
  cases direction with
  | left =>
      cases firstEnd
      cases secondEnd
      exact (List.cons.inj rowSecond).1
  | right =>
      cases firstEnd
      cases secondEnd
      have last := congrArg List.getLast? rowSecond
      simpa using last

theorem exists_two_marked (distinct : row.Nodup)
    (several : 2 ≤ row.countP marked) :
    ∃ first ∈ row, ∃ second ∈ row, first ≠ second ∧
      marked first = true ∧ marked second = true := by
  rw [List.countP_eq_length_filter] at several
  have filtered := distinct.filter marked
  match found : row.filter marked with
  | [] =>
      rw [found] at several
      cases several
  | [_] =>
      rw [found] at several
      exact absurd several (by simp)
  | first :: second :: rest =>
      rw [found, List.nodup_cons] at filtered
      have firstMember : first ∈ row.filter marked := by simp [found]
      have secondMember : second ∈ row.filter marked := by simp [found]
      obtain ⟨firstIn, firstMarked⟩ := List.mem_filter.mp firstMember
      obtain ⟨secondIn, secondMarked⟩ := List.mem_filter.mp secondMember
      refine ⟨first, firstIn, second, secondIn, ?_, firstMarked, secondMarked⟩
      rintro rfl
      exact filtered.1 List.mem_cons_self

end Rule

/-! ## The rows of an arena -/

namespace Arena

/-- Whether an id is that of a live node with a token. -/
def isNamed (arena : Arena) (token : String) (id : Int) : Bool :=
  (arena.live? id).any (·.token == token)

/-- The live nodes whose operands may stand in any order. -/
def rows (arena : Arena) : List Node :=
  arena.liveNodes.filter fun node => Rule.isReorderable node.token

/-- Several operands of one row have a token. -/
def Crowded (arena : Arena) (token : String) : Prop :=
  ∃ node ∈ arena.rows, 2 ≤ node.children.countP (arena.isNamed token)

instance (arena : Arena) (token : String) : Decidable (arena.Crowded token) :=
  inferInstanceAs (Decidable (∃ node ∈ arena.rows, _))

theorem mem_rows {arena : Arena} {id : Int} {node : Node}
    (live : arena.live? id = some node)
    (reorderable : Rule.isReorderable node.token = true) :
    node ∈ arena.rows :=
  List.mem_filter.mpr ⟨mem_liveNodes_iff.mpr ⟨id, live⟩, reorderable⟩

theorem countP_le_one {arena : Arena} {token : String}
    (uncrowded : ¬arena.Crowded token) {node : Node}
    (row : node ∈ arena.rows) :
    node.children.countP (arena.isNamed token) ≤ 1 := by
  apply Nat.le_of_lt_succ
  apply Nat.lt_of_not_le
  intro several
  exact uncrowded ⟨node, row, several⟩

theorem isNamed_of_live {arena : Arena} {token : String} {id : Int}
    {node : Node} (live : arena.live? id = some node) :
    arena.isNamed token id = (node.token == token) := by
  rw [isNamed, live, Option.any_some]

section Reordered

variable {arena : Arena} {id : Int} {parent : Node} {children : List Int}
  (live : arena.live? id = some parent)
include live

theorem live?_reordered (other : Int) :
    (arena.update id fun node =>
      { node with children := children }).live? other =
        if other = id then some { parent with children := children }
        else arena.live? other := by
  refine Rule.live?_update_live live ?_ other
  exact fun _ => rfl

theorem isNamed_reordered (token : String) :
    (arena.update id fun node =>
      { node with children := children }).refresh.isNamed token =
        arena.isNamed token := by
  funext other
  rw [isNamed, isNamed, live?_refresh, live?_reordered live]
  by_cases same : other = id
  · rw [if_pos same, same, live]
    rfl
  · rw [if_neg same]

theorem rows_reordered (reorderable : Rule.isReorderable parent.token = true)
    (children : List Int) :
    ∃ earlier later, arena.rows = earlier ++ parent :: later ∧
      (arena.update id fun node =>
        { node with children := children }).refresh.rows =
          earlier ++ { parent with children := children } :: later := by
  obtain ⟨before, after, slots, changed⟩ := exists_slots_split live
  have alive := (live?_eq_some_iff.mp live).2
  have stillAlive : ({ parent with children := children } : Node).isLive =
      true := alive
  refine ⟨(before.filter (·.isLive)).filter fun node =>
      Rule.isReorderable node.token,
    (after.filter (·.isLive)).filter fun node =>
      Rule.isReorderable node.token, ?_, ?_⟩
  · simp only [rows, liveNodes, slots, List.filter_append, List.filter_cons,
      alive, reorderable, if_true]
  · simp only [rows, liveNodes, slots_refresh, changed, List.filter_append,
      List.filter_cons, stillAlive, reorderable, if_true]

end Reordered

end Arena

/-! ## One change by a move -/

/-- A move as it is recorded. -/
def Record.mover (direction : Rule.Direction) (token : String) : Record :=
  { action := .move
    params := [("direction", .str direction.letter)]
    condition := .tokenIs token }

/-- In each row the operand with a token goes to the end. -/
def Plan.gathering (direction : Rule.Direction) (token : String) : Plan where
  work := fun arena => total (fun node =>
    Rule.travel direction (arena.isNamed token) node.children) arena.rows
  change := fun arena node =>
    if node.isLive && Rule.isReorderable node.token then
      { node with
        children :=
          Rule.gathered direction (arena.isNamed token) node.children }
    else node

namespace Rule

variable {arena : Arena} {direction : Direction} {token : String} {node : Node}

/-- A node is not moved: it has another token, it is no operand of a row, or
nothing stands ahead of it. -/
def Rests (arena : Arena) (direction : Direction) (token : String)
    (node : Node) : Prop :=
  node.token = token → ∀ parent, arena.live? node.parent = some parent →
    isReorderable parent.token = true →
    ∃ before after, parent.children = before ++ node.id :: after ∧
      direction.ahead before after = []

/-- A node is moved by one place among the operands of its row. -/
inductive Shifts (arena : Arena) (direction : Direction) (token : String)
    (node : Node) : Arena → Prop where
  | intro {parent : Node} {before after front back : List Int}
      (named : node.token = token)
      (live : arena.live? node.parent = some parent)
      (reorderable : isReorderable parent.token = true)
      (row : parent.children = before ++ node.id :: after)
      (others : front ++ back = before ++ after)
      (nearer : (direction.ahead front back).length + 1 =
        (direction.ahead before after).length) :
      Shifts arena direction token node
        (arena.update node.parent fun parent =>
          { parent with children := front ++ node.id :: back })

theorem Direction.ofParams_letter (direction : Direction) :
    Direction.ofParams [("direction", .str direction.letter)] =
      .ok direction := by
  cases direction <;> rfl

/-- In a checked arena a move leaves a live node where it is, or brings it one
place nearer to the end of its row. -/
theorem tries_mover (linked : arena.Linked)
    (member : node ∈ arena.liveNodes) :
    (Record.mover direction token).Tries arena (Rests arena direction token)
      (Shifts arena direction token) node := by
  have live := linked.live_of_mem member
  have asked := Direction.ofParams_letter direction
  by_cases named : node.token = token
  · have holds : (Condition.tokenIs token).holds arena node = .ok true := by
      rw [Condition.holds, named, beq_self_eq_true]
    rcases inRow_or_refused linked live asked holds with
      ⟨parent, before, after, inRow⟩ | ⟨fixed, place, refused⟩
    · have ran := move_of_inRow inRow live asked holds
      cases result : moved? direction before.length
          (before ++ node.id :: after) with
      | none =>
          rw [result] at ran
          refine .inl ⟨Record.tryAt_of_ok ran, ?_⟩
          intro _ above aboveLive _
          rw [inRow.live] at aboveLive
          cases aboveLive
          exact ⟨before, after, inRow.row, moved?_eq_none_iff.mp result⟩
      | some moved =>
          rw [result] at ran
          obtain ⟨front, back, rfl, others, nearer⟩ := moved?_eq_some result
          exact .inr ⟨_, Record.tryAt_of_ok ran,
            .intro named inRow.live inRow.reorderable inRow.row others nearer⟩
    · refine .inl ⟨Record.tryAt_of_reorder refused, ?_⟩
      intro _ above aboveLive allowed
      rw [fixed above aboveLive] at allowed
      cases allowed
  · have rejected : (Condition.tokenIs token).holds arena node =
        .ok false := by
      rw [Condition.holds, beq_eq_false_iff_ne.mpr named]
    refine .inl ⟨Record.tryAt_of_ok (move_of_rejected live asked rejected), ?_⟩
    intro same
    exact absurd same named

theorem nothing_ahead_of_rests (linked : arena.Linked)
    (rests : ∀ node ∈ arena.liveNodes, Rests arena direction token node)
    {parent : Node} (row : parent ∈ arena.rows) {child : Int}
    (listed : child ∈ parent.children)
    (named : arena.isNamed token child = true) :
    ∃ before after, parent.children = before ++ child :: after ∧
      direction.ahead before after = [] := by
  obtain ⟨member, reorderable⟩ := List.mem_filter.mp row
  have live := linked.live_of_mem member
  obtain ⟨below, belowLive, up⟩ :=
    linked.children _ parent live child listed
  rw [Arena.isNamed_of_live belowLive, beq_iff_eq] at named
  obtain rfl := linked.ids child below belowLive
  rw [← up] at live
  exact rests below (Arena.mem_liveNodes_iff.mpr ⟨_, belowLive⟩) named parent
    live reorderable

theorem gathered_of_rests (linked : arena.Linked)
    (rests : ∀ node ∈ arena.liveNodes, Rests arena direction token node)
    {parent : Node} (row : parent ∈ arena.rows)
    (single : parent.children.countP (arena.isNamed token) ≤ 1) :
    travel direction (arena.isNamed token) parent.children = 0 ∧
      gathered direction (arena.isNamed token) parent.children =
        parent.children := by
  by_cases unmarked : ∀ child ∈ parent.children,
      arena.isNamed token child = false
  · exact ⟨travel_of_unmarked unmarked, gathered_of_unmarked unmarked⟩
  · simp only [not_forall, Bool.not_eq_false] at unmarked
    obtain ⟨child, listed, named⟩ := unmarked
    obtain ⟨before, after, split, atEnd⟩ :=
      nothing_ahead_of_rests linked rests row listed named
    rw [split] at single ⊢
    have others := unmarked_of_single single named
    rw [travel_append named (List.forall_mem_append.mp others).1,
      gathered_append named others, atEnd]
    refine ⟨rfl, ?_⟩
    cases direction with
    | left =>
        cases atEnd
        rfl
    | right =>
        cases atEnd
        rw [List.append_nil]

/-- Not all such operands of a crowded row can stand at its end. -/
theorem not_crowded_of_rests (linked : arena.Linked)
    (rests : ∀ node ∈ arena.liveNodes, Rests arena direction token node) :
    ¬arena.Crowded token := by
  rintro ⟨parent, row, several⟩
  have live := linked.live_of_mem (List.mem_filter.mp row).1
  obtain ⟨first, firstListed, second, secondListed, apart, firstNamed,
    secondNamed⟩ := exists_two_marked (linked.nodup_children live) several
  obtain ⟨_, _, firstSplit, firstEnd⟩ :=
    nothing_ahead_of_rests linked rests row firstListed firstNamed
  obtain ⟨_, _, secondSplit, secondEnd⟩ :=
    nothing_ahead_of_rests linked rests row secondListed secondNamed
  exact apart (eq_of_nothing_ahead firstSplit secondSplit firstEnd secondEnd)

namespace Shifts

variable {edited : Arena} (shifts : Shifts arena direction token node edited)
include shifts

theorem crowded_iff : edited.refresh.Crowded token ↔ arena.Crowded token := by
  cases shifts with
  | @intro parent before after front back named live reorderable row others =>
      obtain ⟨earlier, later, rows, rowsAfter⟩ :=
        Arena.rows_reordered live reorderable (front ++ node.id :: back)
      have count : (front ++ node.id :: back).countP (arena.isNamed token) =
          parent.children.countP (arena.isNamed token) := by
        rw [row]
        apply List.Perm.countP_eq
        rw [List.perm_middle.congr_left, others]
        exact List.perm_middle.symm
      unfold Arena.Crowded
      rw [rows, rowsAfter, Arena.isNamed_reordered live]
      simp only [List.mem_append, List.mem_cons, or_and_right, exists_or,
        exists_eq_left, count]

/-- A move leaves one step less to make and the same end for each row. -/
theorem nearer_end (nodeLive : arena.live? node.id = some node)
    (uncrowded : ¬arena.Crowded token) :
    (Plan.gathering direction token).work edited.refresh + 1 =
        (Plan.gathering direction token).work arena ∧
      edited.refresh.slots.map
          ((Plan.gathering direction token).change edited.refresh) =
        arena.slots.map ((Plan.gathering direction token).change arena) := by
  cases shifts with
  | @intro parent before after front back named live reorderable row others
      nearer =>
      have here : arena.isNamed token node.id = true := by
        rw [Arena.isNamed_of_live nodeLive, named, beq_self_eq_true]
      have single := Arena.countP_le_one uncrowded
        (Arena.mem_rows live reorderable)
      rw [row] at single
      obtain ⟨travels, gathers⟩ := gathered_of_nearer here
        (unmarked_of_single single here) others nearer
      rw [← row] at travels gathers
      constructor
      · obtain ⟨earlier, later, rows, rowsAfter⟩ :=
          Arena.rows_reordered live reorderable (front ++ node.id :: back)
        simp only [Plan.gathering, rows, rowsAfter,
          Arena.isNamed_reordered live, total_append, total]
        omega
      · obtain ⟨earlier, later, slots, changed⟩ :=
          Arena.exists_slots_split live
        have alive := (Arena.live?_eq_some_iff.mp live).2
        have stillAlive : ({ parent with
            children := front ++ node.id :: back } : Node).isLive = true :=
          alive
        apply Array.ext'
        rw [Array.toList_map, Array.toList_map, Arena.slots_refresh, slots,
          changed]
        simp only [Plan.gathering, Arena.isNamed_reordered live,
          List.map_append, List.map_cons, alive, stillAlive, reorderable,
          Bool.and_self, if_true, gathers]

end Shifts

theorem step_mover (direction : Direction) (token : String)
    (valid : arena.validate = .ok ()) :
    ((Record.mover direction token).step arena = .ok none ∧
        ∀ node ∈ arena.liveNodes, Rests arena direction token node) ∨
      ∃ node edited, arena.live? node.id = some node ∧
        Shifts arena direction token node edited ∧
        (Record.mover direction token).step arena =
          .ok (some edited.refresh) ∧
        edited.refresh.validate = .ok () := by
  have linked := Arena.validate_eq_ok_iff_linked.mp valid
  rcases Record.firstChange_cases fun node member =>
      tries_mover linked member with
    settled | ⟨node, member, edited, shifts, stepped, tried⟩
  · exact .inl settled
  · have ran := Record.tryAt_changed tried rfl
    have still := Action.validate_run valid member ran fun lossy =>
      nomatch lossy.1
    exact .inr ⟨node, edited, linked.live_of_mem member, shifts, stepped, still⟩

/-- Where no row is crowded, a move gathers the rows step by step. -/
theorem gathering_guides (direction : Direction) (token : String) :
    (Plan.gathering direction token).Guides (Record.mover direction token)
      fun arena => arena.validate = .ok () ∧ ¬arena.Crowded token := by
  rintro arena ⟨valid, uncrowded⟩
  have linked := Arena.validate_eq_ok_iff_linked.mp valid
  rcases step_mover direction token valid with
    ⟨stepped, rests⟩ | ⟨node, edited, live, shifts, stepped, still⟩
  · have ends : ∀ row ∈ arena.rows,
        travel direction (arena.isNamed token) row.children = 0 ∧
          gathered direction (arena.isNamed token) row.children =
            row.children := by
      intro row member
      exact gathered_of_rests linked rests member
        (Arena.countP_le_one uncrowded member)
    refine .inl ⟨stepped, ?_, ?_⟩
    · exact total_eq_zero fun row member => (ends row member).1
    · apply Arena.map_slots_eq_self
      intro slot member
      simp only [Plan.gathering]
      split
      next row =>
        rw [Bool.and_eq_true] at row
        have live : slot ∈ arena.liveNodes :=
          List.mem_filter.mpr ⟨member, row.1⟩
        rw [(ends slot (List.mem_filter.mpr ⟨live, row.2⟩)).2]
      next => rfl
  · obtain ⟨work, slots⟩ := shifts.nearer_end live uncrowded
    refine .inr ⟨edited.refresh, ?_, still, ?_⟩
    · exact
        { stepped := stepped
          work := work
          fresh := rfl
          root := by cases shifts; exact arena.root_update _ _
          slots := slots }
    · rw [shifts.crowded_iff]
      exact uncrowded

/-- In a crowded arena a move can always be made, and the arena stays
crowded. -/
theorem step_of_crowded (direction : Direction) {token : String}
    (valid : arena.validate = .ok ()) (crowded : arena.Crowded token) :
    ∃ next, (Record.mover direction token).step arena = .ok (some next) ∧
      next.validate = .ok () ∧ next.Crowded token := by
  have linked := Arena.validate_eq_ok_iff_linked.mp valid
  rcases step_mover direction token valid with
    ⟨_, rests⟩ | ⟨node, edited, _, shifts, stepped, still⟩
  · exact absurd crowded (not_crowded_of_rests linked rests)
  · exact ⟨edited.refresh, stepped, still, shifts.crowded_iff.mpr crowded⟩

end Rule

/-- In a checked arena the replay of a move comes to an end just if no row has
several operands with the token.  It then takes as many changes as these
operands have places to go, and leaves each of them at the end of its row, with
the others in their order and nothing else changed.  In a crowded arena it
fails because of the limit, whatever the limit is. -/
theorem moves_settle_unless_crowded {arena : Arena}
    (valid : arena.validate = .ok ()) (direction : Rule.Direction)
    (token : String) :
    (¬arena.Crowded token →
      Replay.Reaches ⟨[.mover direction token], arena⟩
          ((Plan.gathering direction token).work arena)
          ⟨[], (Plan.gathering direction token).result arena⟩ ∧
        ((Plan.gathering direction token).result arena).slots =
          arena.slots.map ((Plan.gathering direction token).change arena) ∧
        ∀ budget : Int, 0 ≤ budget →
          ({ records := [.mover direction token] } : Stack).replay budget
              arena =
            if ((Plan.gathering direction token).work arena : Int) ≤ budget
            then .ok ((Plan.gathering direction token).result arena)
            else .error
              (Replay.exceeded 0 (.mover direction token) budget)) ∧
      (arena.Crowded token → ∀ budget : Int,
        ({ records := [.mover direction token] } : Stack).replay budget arena =
          .error (Replay.exceeded 0 (.mover direction token) budget)) := by
  constructor
  · intro uncrowded
    have guides := Rule.gathering_guides direction token
    refine ⟨guides.reaches ⟨valid, uncrowded⟩,
      guides.slots_result ⟨valid, uncrowded⟩, ?_⟩
    intro budget allowed
    exact guides.replay_eq ⟨valid, uncrowded⟩ allowed
  · intro crowded budget
    -- A crowded arena is left by one move more than any budget allows.
    obtain ⟨final, reaches⟩ := Replay.exists_reaches_of_progress
      (fun _ good => Rule.step_of_crowded direction good.1 good.2)
      (And.intro valid crowded) (budget.toNat + 1)
    exact reaches.replay_single (Nat.lt_succ_self _)

/-- Of the operands `z`, one is in a call and stays, and three go to the right
by four places in all.  In a sum with two of them the move never ends. -/
theorem moves_settle_unless_crowded_right :
    ∃ start crowded : Arena,
      Arena.ofText "(and z (or x y z) (+ z x) (f z w))" = .ok start ∧
      start.validate = .ok () ∧ ¬start.Crowded "z" ∧
      ({ records := [.mover .right "z"] } : Stack).replay 4 start =
        .ok ((Plan.gathering .right "z").result start) ∧
      ((Plan.gathering .right "z").result start).render {} =
        .ok "(and (or x y z) (+ x z) (f z w) z)" ∧
      ({ records := [.mover .right "z"] } : Stack).replay 3 start =
        .error (Replay.exceeded 0 (.mover .right "z") 3) ∧
      Arena.ofText "(+ z x z)" = .ok crowded ∧
      crowded.validate = .ok () ∧ crowded.Crowded "z" ∧
      ({ records := [.mover .right "z"] } : Stack).replay 1000000 crowded =
        .error (Replay.exceeded 0 (.mover .right "z") 1000000) := by
  have shown : (do
      let start ← Arena.ofText "(and z (or x y z) (+ z x) (f z w))"
      let _ ← start.validate
      let crowded ← Arena.ofText "(+ z x z)"
      let _ ← crowded.validate
      let text ← ((Plan.gathering .right "z").result start).render {}
      return (decide (start.Crowded "z"), decide (crowded.Crowded "z"),
        (Plan.gathering .right "z").work start, text)).toOption =
      some (false, true, 4, "(and (or x y z) (+ x z) (f z w) z)") := by
    decide +kernel
  obtain ⟨start, read, rest⟩ :=
    Result.bind_eq_ok_iff.mp (Result.toOption_eq_some_iff.mp shown)
  obtain ⟨_, valid, rest⟩ := Result.bind_eq_ok_iff.mp rest
  obtain ⟨crowded, crowdedRead, rest⟩ := Result.bind_eq_ok_iff.mp rest
  obtain ⟨_, crowdedValid, rest⟩ := Result.bind_eq_ok_iff.mp rest
  obtain ⟨text, rendered, last⟩ := Result.bind_eq_ok_iff.mp rest
  obtain ⟨single, several, four, rfl⟩ : ¬start.Crowded "z" ∧
      crowded.Crowded "z" ∧ (Plan.gathering .right "z").work start = 4 ∧
      text = "(and (or x y z) (+ x z) (f z w) z)" := by
    simpa using Except.ok.inj last
  obtain ⟨_, _, replayed⟩ :=
    (moves_settle_unless_crowded valid .right "z").1 single
  rw [four] at replayed
  have enough := replayed 4 (by decide)
  have short := replayed 3 (by decide)
  rw [if_pos (by decide)] at enough
  rw [if_neg (by decide)] at short
  have diverges :=
    (moves_settle_unless_crowded crowdedValid .right "z").2 several
  exact ⟨start, crowded, read, valid, single, enough, rendered, short,
    crowdedRead, crowdedValid, several, diverges 1000000⟩

end FormulaEdit
