import FormulaEdit.Proofs.Rule.InPlace

/-!
# Moves within a row

The operands of a node that may stand in any order are a row.  A live node of
a checked arena stands in such a row, and then a move changes the row and
nothing else, or the move is refused.  A move in one direction is taken back
by one in the other.
-/

namespace FormulaEdit

theorem Arena.parentOf_of_live {arena : Arena} {node parent : Node}
    (live : arena.live? node.parent = some parent) :
    arena.parentOf node = .ok (some parent) := by
  rw [parentOf, if_neg (live?_ne_noParent live), node_of_live live]
  rfl

namespace Rule

/-- A node stands in a row between other operands of its parent. -/
structure InRow (arena : Arena) (node parent : Node)
    (before after : List Int) : Prop where
  live : arena.live? node.parent = some parent
  reorderable : isReorderable parent.token = true
  row : parent.children = before ++ node.id :: after
  first : node.id ∉ before

section

variable {arena : Arena} {node : Node} {condition : Condition}
  {params : Json.Members} {direction : Direction}

theorem move_of_rejected (live : arena.live? node.id = some node)
    (asked : Direction.ofParams params = .ok direction)
    (rejected : condition.holds arena node = .ok false) :
    move arena node.id condition params = .ok (.unchanged arena) := by
  rw [move, asked]
  exact guarded_of_decided live rejected

theorem move_of_inRow {parent : Node} {before after : List Int}
    (inRow : InRow arena node parent before after)
    (live : arena.live? node.id = some node)
    (asked : Direction.ofParams params = .ok direction)
    (holds : condition.holds arena node = .ok true) :
    move arena node.id condition params =
      .ok (match moved? direction before.length
          (before ++ node.id :: after) with
        | none => .unchanged arena
        | some children =>
            .edited (arena.update node.parent fun parent =>
              { parent with children := children })) := by
  have above := Arena.parentOf_of_live inRow.live
  rw [move, asked]
  refine (guarded_of_decided live holds).trans ?_
  simp only [if_true, above, bind, Except.bind, inRow.reorderable,
    Bool.not_true, Bool.false_eq_true, if_false, inRow.row,
    indexIn_append inRow.first]
  cases moved? direction before.length (before ++ node.id :: after) with
  | none => rfl
  | some children => rfl

/-- A live node of a checked arena stands in a row, or every move of it is
refused. -/
theorem inRow_or_refused (linked : arena.Linked)
    (live : arena.live? node.id = some node)
    (asked : Direction.ofParams params = .ok direction)
    (holds : condition.holds arena node = .ok true) :
    (∃ parent before after, InRow arena node parent before after) ∨
      (∀ parent, arena.live? node.parent = some parent →
        isReorderable parent.token = false) ∧
      ∃ place, move arena node.id condition params =
        .error (.reorder node.token place) := by
  by_cases top : node.parent = Node.noParent
  · refine .inr ⟨?_, none, ?_⟩
    · intro parent parentLive
      exact absurd top (Arena.live?_ne_noParent parentLive)
    · rw [move, asked]
      refine (guarded_of_decided live holds).trans ?_
      rw [if_pos rfl, Arena.parentOf, if_pos top]
      rfl
  · obtain ⟨parent, parentLive, _⟩ := linked.parents node.id node live top
    cases allowed : isReorderable parent.token with
    | true =>
        obtain ⟨before, after, row, first⟩ := List.eq_append_cons_of_mem
          (linked.mem_children live parentLive)
        exact .inl ⟨parent, before, after, parentLive, allowed, row, first⟩
    | false =>
        refine .inr ⟨?_, some parent.token, ?_⟩
        · intro above aboveLive
          rw [parentLive] at aboveLive
          cases aboveLive
          exact allowed
        · rw [move, asked]
          refine (guarded_of_decided live holds).trans ?_
          rw [if_pos rfl, Arena.parentOf_of_live parentLive]
          simp only [bind, Except.bind, allowed, Bool.not_false, if_true]

end

/-- The other direction. -/
def Direction.opposite : Direction → Direction
  | .left => .right
  | .right => .left

theorem moved?_opposite {direction : Direction} {before after moved : List Int}
    {id : Int}
    (result : moved? direction before.length (before ++ id :: after) =
      some moved) :
    ∃ front back, moved = front ++ id :: back ∧
      front ++ back = before ++ after ∧
      moved? direction.opposite front.length (front ++ id :: back) =
        some (before ++ id :: after) := by
  cases direction with
  | left =>
      obtain ⟨front, neighbour, rfl, rfl⟩ := moved?_left_eq_some result
      refine ⟨front, neighbour :: after, rfl, by simp, ?_⟩
      rw [Direction.opposite, moved?, if_pos (by simp), swapNext_append]
      simp
  | right =>
      obtain ⟨neighbour, rest, rfl, rfl⟩ := moved?_right_eq_some result
      refine ⟨before ++ [neighbour], rest, by simp, by simp, ?_⟩
      have shape : before ++ [neighbour] ++ id :: rest =
          before ++ neighbour :: id :: rest := by simp
      rw [Direction.opposite, moved?, if_neg (by simp), shape]
      simp [swapNext_append]

end Rule

end FormulaEdit
