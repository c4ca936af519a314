import FormulaEdit.Arena.Basic

/-!
# Rendering

The text of a node is put together from the finished texts of its children,
which are kept in a table by id and taken out once.  A stack holds the nodes
that wait: a node goes back on the stack below its children, so that these are
finished before it.  Brackets and line breaks come from the flags of the nodes
and not from the source.
-/

namespace FormulaEdit

/-- The weights of all items of a list together. -/
def total {α : Type} (weight : α → Nat) : List α → Nat
  | [] => 0
  | item :: rest => weight item + total weight rest

theorem total_append {α : Type} (weight : α → Nat) (first second : List α) :
    total weight (first ++ second) = total weight first + total weight second := by
  induction first with
  | nil => rw [List.nil_append, total, Nat.zero_add]
  | cons item rest induction => rw [List.cons_append, total, total, induction, Nat.add_assoc]

theorem total_map {α β : Type} (weight : β → Nat) (item : α → β) (items : List α) :
    total weight (items.map item) = total (weight ∘ item) items := by
  induction items with
  | nil => rfl
  | cons first rest induction => rw [List.map_cons, total, total, induction, Function.comp]

/-- How a node is to be rendered: the indentation of one level, and the id of
the node to be marked, if any node has it. -/
structure Layout where
  indent : String := "\t"
  highlight : Int := -1
deriving DecidableEq, Repr

namespace Layout

/-- What stands in front of a marked text. -/
def highlightOpen : String := "<span class=\"highlighted\">"

/-- What stands behind a marked text. -/
def highlightClose : String := "</span>"

/-- A text between brackets. -/
def bracket (text : String) : String := "(" ++ text ++ ")"

end Layout

namespace Arena

/-- The text of a node without mark and line break, from the texts of its
children.  The root keeps its brackets around a single element, so that the
text can be read again. -/
def bareText (arena : Arena) (node : Node) (parts : List String) : String :=
  let atRoot := node.id == arena.root && node.bracketed
  if node.children.isEmpty then
    if atRoot && Node.isOperator node.token then Layout.bracket node.token else node.token
  else
    let elements := if node.isPlainList then parts else node.token :: parts
    let text := " ".intercalate elements
    if node.bracketed && (elements.length != 1 || atRoot) then Layout.bracket text else text

/-- The text of a node from the texts of its children. -/
def nodeText (arena : Arena) (layout : Layout) (node : Node) (parts : List String) :
    Result String := do
  let bare := arena.bareText node parts
  let marked :=
    if node.id = layout.highlight then Layout.highlightOpen ++ bare ++ Layout.highlightClose
    else bare
  if node.breaksLine then
    let depth ← arena.depth node
    return "\n" ++ String.join (List.replicate depth layout.indent) ++ marked
  else return marked

/-- Finished texts by id, the latest first. -/
abbrev Finished := List (Int × String)

/-- Take the text of an id out of a table. -/
def Finished.take (finished : Finished) (id : Int) : Result (String × Finished) :=
  match finished.lookup id with
  | some text => .ok (text, finished.filter (·.1 != id))
  | none => .error (.missingPart id)

/-- Take the texts of several ids out of a table, one after the other. -/
def Finished.takeAll (finished : Finished) : List Int → Result (List String × Finished)
  | [] => .ok ([], finished)
  | id :: rest => do
      let (text, finished) ← finished.take id
      let (texts, finished) ← Finished.takeAll finished rest
      return (text :: texts, finished)

/-- Enter a text, in place of an older one of the same id. -/
def Finished.put (finished : Finished) (id : Int) (text : String) : Finished :=
  (id, text) :: finished.filter (·.1 != id)

/-- The slots of ids, looked up from the last to the first. -/
def nodesOf (arena : Arena) : List Int → Result (List Node)
  | [] => .ok []
  | id :: rest => do
      let nodes ← arena.nodesOf rest
      return (← arena.node id) :: nodes

/-- Finish a node whose children are finished. -/
def close (arena : Arena) (layout : Layout) (node : Node) (finished : Finished) :
    Result Finished := do
  let (parts, finished) ← finished.takeAll node.children
  return finished.put node.id (← arena.nodeText layout node parts)

/-- A node on the stack.  An expanded one waits for its children, which were put
on the stack above it.  `levels` bounds the levels below the node. -/
structure Task where
  node : Node
  levels : Nat
  expanded : Bool := false

/-- A bound for the number of tasks that are taken from the stack until a node
is finished. -/
def effort (arena : Arena) : (levels : Nat) → Node → Nat
  | 0, _ => 1
  | levels + 1, node =>
      match arena.nodesOf node.children with
      | .error _ => 1
      | .ok children => 2 + total (arena.effort levels) children

/-- A bound for the number of tasks that one task leads to, itself included. -/
def Task.effort (arena : Arena) (task : Task) : Nat :=
  if task.expanded then 1 else arena.effort task.levels task.node

theorem effort_pos (arena : Arena) (levels : Nat) (node : Node) :
    0 < arena.effort levels node := by
  cases levels with
  | zero => exact Nat.one_pos
  | succ levels =>
      rw [effort]
      split <;> omega

theorem Task.effort_pos (arena : Arena) (task : Task) : 0 < task.effort arena := by
  unfold Task.effort
  split
  · exact Nat.one_pos
  · exact arena.effort_pos task.levels task.node

/-- Take one task from the stack.  A node with children goes back, expanded and
below its children; any other task is closed. -/
def advance (arena : Arena) (layout : Layout) (task : Task) (rest : List Task)
    (finished : Finished) : Result (List Task × Finished) :=
  if task.expanded || task.node.children.isEmpty then do
    return (rest, ← arena.close layout task.node finished)
  else
    match task.levels with
    | 0 => .error (.arena (.childCycle task.node.id))
    | levels + 1 => do
        let children ← arena.nodesOf task.node.children
        let above := children.map fun child => { node := child, levels : Task }
        return (above ++ { task with expanded := true } :: rest, finished)

/-- Taking a task from the stack leaves less to do. -/
theorem advance_effort {arena : Arena} {layout : Layout} {task : Task} {rest pending : List Task}
    {finished done : Finished}
    (advanced : arena.advance layout task rest finished = .ok (pending, done)) :
    total (Task.effort arena) pending < total (Task.effort arena) (task :: rest) := by
  rw [total]
  unfold advance at advanced
  split at advanced
  · have positive := task.effort_pos arena
    cases closed : arena.close layout task.node finished with
    | error failure => simp [closed, bind, Except.bind] at advanced
    | ok closing =>
        simp only [closed, bind, Except.bind, pure, Except.pure, Except.ok.injEq,
          Prod.mk.injEq] at advanced
        rw [← advanced.1]
        omega
  · next waiting =>
      obtain ⟨node, levels, expanded⟩ := task
      obtain rfl : expanded = false := by simp_all
      cases levels with
      | zero => cases advanced
      | succ levels =>
          cases found : arena.nodesOf node.children with
          | error failure => simp [found, bind, Except.bind] at advanced
          | ok children =>
              simp only [found, bind, Except.bind, pure, Except.pure, Except.ok.injEq,
                Prod.mk.injEq] at advanced
              have all : Task.effort arena ⟨node, levels + 1, false⟩ =
                  2 + total (arena.effort levels) children := by
                simp [Task.effort, effort, found]
              have each : (Task.effort arena ∘ fun child => { node := child, levels : Task }) =
                  arena.effort levels := rfl
              have last : Task.effort arena ⟨node, levels + 1, true⟩ = 1 := rfl
              rw [← advanced.1, all, total_append, total_map, each, total, last]
              omega

/-- Work off the stack. -/
@[semireducible] def walk (arena : Arena) (layout : Layout) (pending : List Task)
    (finished : Finished) : Result Finished :=
  match pending with
  | [] => .ok finished
  | task :: rest =>
      match _ : arena.advance layout task rest finished with
      | .error failure => .error failure
      | .ok (pending, finished) => arena.walk layout pending finished
termination_by total (Task.effort arena) pending
decreasing_by exact advance_effort ‹_›

/-- The text of a node and everything below it. -/
def renderNode (arena : Arena) (layout : Layout) (node : Node) : Result String := do
  let finished ← arena.walk layout [{ node, levels := arena.size + 1 }] []
  return (← finished.take node.id).1

/-- The text of a whole arena. -/
def render (arena : Arena) (layout : Layout) : Result String := do
  arena.renderNode layout (← arena.rootNode)

end Arena

end FormulaEdit
