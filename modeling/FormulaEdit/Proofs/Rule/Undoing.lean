import FormulaEdit.Proofs.Replay.Sweep
import FormulaEdit.Proofs.Rule.Reorder
import FormulaEdit.Proofs.View

/-!
# Taking edits back

A flip, a toggle of a flag and a move change one slot.  The same rule, for a
move with the other direction, changes that slot back.  Since the view of an
arena is always fresh, this restores the whole arena.
-/

namespace FormulaEdit

namespace Arena

variable {arena : Arena}

theorem Fresh.refresh_eq (fresh : arena.Fresh) : arena.refresh = arena := by
  unfold Fresh at fresh
  unfold refresh
  rw [← fresh]

theorem refresh_congr {other : Arena} (slots : arena.slots = other.slots)
    (root : arena.root = other.root) : arena.refresh = other.refresh := by
  rw [refresh, refresh, slots, root]

theorem slots_update_back {id : Int} {node : Node}
    (live : arena.live? id = some node) {change back : Node → Node}
    (restores : back (change node) = node) :
    ((arena.update id change).refresh.update id back).slots =
      arena.slots := by
  obtain ⟨lower, stored⟩ := node?_eq_some_iff.mp (node?_of_live live)
  have notNegative := Int.not_lt.mpr lower
  rw [update, update, if_neg notNegative, if_neg notNegative]
  apply Array.ext_getElem?
  intro slot
  simp only [slots_refresh, Array.getElem?_modify]
  by_cases here : id.toNat = slot
  · subst here
    simp [stored, restores]
  · simp [here]

end Arena

/-- A change of one slot that is taken back restores a fresh arena. -/
theorem Outcome.edited_back {arena : Arena} (fresh : arena.Fresh) {id : Int}
    {node : Node} (live : arena.live? id = some node)
    {change back : Node → Node} (restores : back (change node) = node) :
    Outcome.edited
        ((Outcome.edited (arena.update id change)).arena.update id back) =
      ⟨true, arena⟩ := by
  have restored :=
    calc
      ((arena.update id change).refresh.update id back).refresh
        = arena.refresh := by
          apply Arena.refresh_congr
          · exact Arena.slots_update_back live restores
          · rw [Arena.root_update, Arena.root_refresh, Arena.root_update]
      _ = arena := fresh.refresh_eq
  exact congrArg (Outcome.mk true) restored

theorem Outcome.live?_edited {arena : Arena} {id : Int} {node : Node}
    (live : arena.live? id = some node) {change : Node → Node}
    (keepsId : ∀ node, (change node).id = node.id) (other : Int) :
    (edited (arena.update id change)).arena.live? other =
      if other = id then some (change node) else arena.live? other := by
  rw [edited, Arena.live?_refresh, Rule.live?_update_live live keepsId]

section

variable {arena : Arena} {focus : Int} {node : Node} {outcome : Outcome}

theorem Flag.touched_touched (flag : Flag) (node : Node) :
    flag.toggle.touched (flag.toggle.touched node) = node := by
  cases flag <;> simp [Flag.toggle, Action.touched]

theorem Flag.toggle_back (flag : Flag) {params : Json.Members}
    (fresh : arena.Fresh) (live : arena.live? focus = some node)
    (ran : flag.toggle.run arena focus params .always = .ok outcome)
    (back : Json.Members) :
    flag.toggle.run outcome.arena focus back .always =
      .ok ⟨true, arena⟩ := by
  rw [flag.run_toggle, Rule.guarded_always live] at ran
  cases ran
  have touched := Outcome.live?_edited live flag.toggle.id_touched focus
  rw [if_pos rfl] at touched
  rw [flag.run_toggle, Rule.guarded_always touched,
    Outcome.edited_back fresh live (flag.touched_touched node)]

namespace Rule

theorem flippedComparison?_flipped {token flipped : String}
    (flips : flippedComparison? token = some flipped) :
    flippedComparison? flipped = some token := by
  rw [flippedComparison?_eq_some_iff] at flips ⊢
  grind

theorem flipComparison_back (fresh : arena.Fresh)
    (live : arena.live? focus = some node)
    (ran : flipComparison arena focus .always = .ok outcome)
    (changed : outcome.changed = true) :
    flipComparison outcome.arena focus .always = .ok ⟨true, arena⟩ := by
  rw [flipComparison, guarded_always live] at ran
  split at ran
  next token first second flips binary =>
      cases ran
      have flipped :
          (Outcome.edited (arena.update focus fun node =>
            { node with token := token, children := [second, first] })
          ).arena.live? focus =
            some { node with token := token, children := [second, first] } := by
        refine (Outcome.live?_edited live ?_ focus).trans (if_pos rfl)
        exact fun _ => rfl
      rw [flipComparison, guarded_always flipped]
      simp only [flippedComparison?_flipped flips]
      rw [Outcome.edited_back fresh live]
      rw [← binary]
  next =>
      cases ran
      cases changed

theorem InRow.moved {parent : Node} {before after front back : List Int}
    (inRow : InRow arena node parent before after) (linked : arena.Linked)
    (live : arena.live? node.id = some node)
    (others : front ++ back = before ++ after) :
    let edited := (Outcome.edited (arena.update node.parent fun parent =>
      { parent with children := front ++ node.id :: back })).arena
    edited.live? node.id = some node ∧
      InRow edited node
        { parent with children := front ++ node.id :: back } front back := by
  intro edited
  have slots : ∀ other, edited.live? other =
      if other = node.parent then
        some { parent with children := front ++ node.id :: back }
      else arena.live? other :=
    Outcome.live?_edited inRow.live fun _ => rfl
  have alone : node.id ∉ front ++ back := by
    have distinct := linked.nodup_children inRow.live
    rw [inRow.row, List.nodup_middle, List.nodup_cons] at distinct
    rw [others]
    exact distinct.1
  refine ⟨?_, ?_, inRow.reorderable, rfl, ?_⟩
  · rw [slots, if_neg (linked.parent_ne_id live).symm]
    exact live
  · rw [slots, if_pos rfl]
  · intro inFront
    exact alone (List.mem_append_left back inFront)

theorem move_back {params back : Json.Members} {direction : Direction}
    (fresh : arena.Fresh) (linked : arena.Linked)
    (live : arena.live? node.id = some node)
    (asked : Direction.ofParams params = .ok direction)
    (askedBack : Direction.ofParams back = .ok direction.opposite)
    (ran : move arena node.id .always params = .ok outcome)
    (changed : outcome.changed = true) :
    move outcome.arena node.id .always back = .ok ⟨true, arena⟩ := by
  have holds : ∀ arena, Condition.always.holds arena node = .ok true :=
    fun _ => rfl
  rcases inRow_or_refused linked live asked (holds arena) with
    ⟨parent, before, after, inRow⟩ | ⟨_, place, refused⟩
  · rw [move_of_inRow inRow live asked (holds arena)] at ran
    cases result : moved? direction before.length
        (before ++ node.id :: after) with
    | none =>
        rw [result] at ran
        cases ran
        cases changed
    | some children =>
        rw [result] at ran
        cases ran
        obtain ⟨front, behind, rfl, others, returned⟩ := moved?_opposite result
        obtain ⟨stillLive, newRow⟩ := inRow.moved linked live others
        rw [move_of_inRow newRow stillLive askedBack (holds _), returned]
        simp only
        rw [Outcome.edited_back fresh inRow.live]
        rw [← inRow.row]
  · rw [refused] at ran
    cases ran

end Rule

end

/-- A rule with one list of parameters takes back what it did with another. -/
inductive Undoes : Action → (params back : Json.Members) → Prop where
  | flip (params back : Json.Members) : Undoes .flipComparison params back
  | toggleBreak (params back : Json.Members) : Undoes .toggleBreak params back
  | toggleBracket (params back : Json.Members) :
      Undoes .toggleBracket params back
  | move {params back : Json.Members} {direction : Rule.Direction}
      (asked : Rule.Direction.ofParams params = .ok direction)
      (askedBack : Rule.Direction.ofParams back = .ok direction.opposite) :
      Undoes .move params back

/-- When a flip, a toggle or a move changes an arena, the same rule at the same
id, for a move in the other direction, changes it too.  All slots, the root and
the view are then as before. -/
theorem reversible_edits_undone {text : String} {start arena : Arena}
    {focus : Node} {action : Action} {params back : Json.Members}
    {outcome : Outcome} (read : Arena.ofText text = .ok start)
    (steps : Relation.ReflTransGen Arena.EditStep start arena)
    (valid : arena.validate = .ok ()) (live : focus ∈ arena.liveNodes)
    (undoes : Undoes action params back)
    (ran : action.run arena focus.id params .always = .ok outcome)
    (changed : outcome.changed = true) :
    action.run outcome.arena focus.id back .always = .ok ⟨true, arena⟩ := by
  have fresh := Arena.fresh_of_steps read steps
  have linked := Arena.validate_eq_ok_iff_linked.mp valid
  have focusLive := linked.live_of_mem live
  cases undoes with
  | flip => exact Rule.flipComparison_back fresh focusLive ran changed
  | toggleBreak =>
      exact Flag.breaksLine.toggle_back fresh focusLive ran back
  | toggleBracket =>
      exact Flag.bracketed.toggle_back fresh focusLive ran back
  | move asked askedBack =>
      exact Rule.move_back fresh linked focusLive asked askedBack ran changed

/-- In `(and p (< x y) q)`, with a line break before `q`, the comparison is
moved to the end and back. -/
theorem reversible_edits_undone_move : ∃ start arena outcome,
    Arena.ofText "(and p (< x y) q)" = .ok start ∧
    Relation.ReflTransGen Arena.EditStep start arena ∧
    arena.validate = .ok () ∧
    arena.liveNodes.map Node.children = [[1, 2, 5], [], [3, 4], [], [], []] ∧
    Action.move.run arena 2 [("direction", .str "r")] .always = .ok outcome ∧
    outcome.changed = true ∧
    outcome.arena.liveNodes.map Node.children =
      [[1, 5, 2], [], [3, 4], [], [], []] ∧
    Action.move.run outcome.arena 2 [("direction", .str "l")] .always =
      .ok ⟨true, arena⟩ := by
  let focus : Node :=
    { id := 2, token := "<", parent := 0, children := [3, 4]
      span := ⟨⟨0, 7⟩, ⟨0, 13⟩⟩ }
  obtain ⟨start, toggled, outcome, read, broke, valid, live, rows, ran,
      changed, moved⟩ : ∃ start toggled outcome,
      Arena.ofText "(and p (< x y) q)" = .ok start ∧
      Action.toggleBreak.run start 5 [] .always = .ok toggled ∧
      toggled.arena.validate = .ok () ∧
      focus ∈ toggled.arena.liveNodes ∧
      toggled.arena.liveNodes.map Node.children =
        [[1, 2, 5], [], [3, 4], [], [], []] ∧
      Action.move.run toggled.arena 2 [("direction", .str "r")] .always =
        .ok outcome ∧
      outcome.changed = true ∧
      outcome.arena.liveNodes.map Node.children =
        [[1, 5, 2], [], [3, 4], [], [], []] :=
    ⟨_, _, _, rfl, rfl, rfl, by decide, rfl, rfl, rfl, rfl⟩
  have steps : Relation.ReflTransGen Arena.EditStep start toggled.arena :=
    .single (.rule (.run broke))
  have undoes : Undoes .move [("direction", .str "r")]
      [("direction", .str "l")] := .move rfl rfl
  have back := reversible_edits_undone read steps valid live undoes ran changed
  exact ⟨start, toggled.arena, outcome, read, steps, valid, rows, ran, changed,
    moved, back⟩

end FormulaEdit
