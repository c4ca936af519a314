import FormulaEdit.Proofs.Rule.Edits
import FormulaEdit.Proofs.Rule.Preservation

/-!
# Rendering after edits

Whatever the rules do to a formula that was read, other than replacing texts,
the result can be rendered.  While the root keeps its brackets, the rendering
can be read again unless the root is down to a bare name: brackets are kept
around a childless operator, but not around any other childless root.
-/

namespace FormulaEdit

open Sexpr (Formula Shape Spelled)

theorem Arena.ofText_accepts_iff {shape : Shape} {text : String}
    (spelled : Spelled [shape] text) :
    (∃ arena, Arena.ofText text = .ok arena) ↔ shape.isAtom = false := by
  constructor
  · intro ⟨arena, read⟩
    obtain ⟨again, _, formula, _⟩ := exists_formula_of_ofText read
    obtain ⟨compound, spells⟩ := Sexpr.formula_iff_spells.mp formula
    have same := spells.tokens_eq spelled.spells
    cases again with
    | atom name => cases compound
    | compound items =>
        cases shape with
        | atom name => cases same
        | compound items => rfl
  · intro compound
    have formula := Sexpr.formula_iff_spells.mpr ⟨compound, spelled.spells⟩
    obtain ⟨arena, _, read, _⟩ := ofText_of_formula formula
    exact ⟨arena, read⟩

/-- A root with brackets shows one expression.  It is a compound, unless the
root is childless and its token stands for no compound. -/
theorem Label.exists_shape {label : Label} (bracketed : label.bracketed = true)
    (parts : List (List Shape)) :
    ∃ shape, label.shapes true parts = [shape] ∧
      (shape.isAtom = false ↔ (parts = [] →
        label.token = Node.emptyList ∨
          Node.isOperator label.token = true)) := by
  unfold Label.shapes
  rw [bracketed]
  cases parts with
  | nil =>
      by_cases empty : label.token = Node.emptyList
      · exact ⟨.compound [], by simp [empty], by simp [Shape.isAtom, empty]⟩
      · cases operator : Node.isOperator label.token with
        | true =>
            exact ⟨.compound [.atom label.token], by simp [empty],
              by simp [Shape.isAtom]⟩
        | false =>
            exact ⟨.atom label.token, by simp [empty],
              by simp [Shape.isAtom, empty]⟩
  | cons first rest =>
      let elements := if label.token == Node.listMarker then first :: rest
        else [.atom label.token] :: first :: rest
      exact ⟨.compound elements.flatten, by simp [elements],
        by simp [Shape.isAtom]⟩

namespace Arena

theorem wired_of_ofText {text : String} {arena : Arena}
    (read : ofText text = .ok arena) : arena.Wired := by
  unfold ofText at read
  split at read
  next expr found =>
      cases read
      exact (readFrom_of_read found).linked.wired
  next => cases read

theorem ReadFrom.readable {shape : Shape} {arena : Arena} {tree : Tree}
    (read : ReadFrom shape arena tree) : arena.Readable := by
  intro node member
  obtain ⟨id, live⟩ := mem_liveNodes_iff.mp member
  obtain ⟨context, label, operands, rfl, rfl, rfl⟩ := read.exists_plug live
  have here := read.asRead.of_plug.root.readable
  rw [Label.ofNode_node, Label.children_node, List.map_eq_nil_iff]
  exact here

/-- Along a run without replacements an arena stays wired, and its tokens
readable. -/
theorem Run.wired_and_readable {start arena : Arena}
    (run : Run (fun _ action _ _ => action ≠ .replace) start arena)
    (wired : start.Wired) (readable : start.Readable) :
    arena.Wired ∧ arena.Readable := by
  induction run with
  | start => exact ⟨wired, readable⟩
  | step _ live ran notReplace induction =>
      obtain ⟨stillWired, stillReadable⟩ := induction
      have edits := Rule.edits_of_run stillWired
        (stillWired.live_of_mem live) notReplace ran
      exact ⟨edits.wired stillWired, edits.readable stillWired stillReadable⟩

end Arena

/-- After any rules but replacements a formula can be rendered.  If the root
has its brackets, the rendering can be read again unless the root is a
childless node that is neither an operator nor the empty list. -/
theorem edited_rendering_read_iff {text : String} {start arena : Arena}
    (read : Arena.ofText text = .ok start)
    (run : Arena.Run (fun _ action _ _ => action ≠ .replace) start arena) :
    ∃ root rendered, arena.rootNode = .ok root ∧
      arena.render {} = .ok rendered ∧
      (root.bracketed = true →
        ((∃ again, Arena.ofText rendered = .ok again) ↔
          (root.children = [] → root.token = Node.emptyList ∨
            Node.isOperator root.token = true))) := by
  obtain ⟨_, _, _, readFrom⟩ := Arena.exists_formula_of_ofText read
  obtain ⟨wired, readable⟩ := run.wired_and_readable
    (Arena.wired_of_ofText read) readFrom.readable
  obtain ⟨tree, unfolds⟩ := wired.exists_unfolds
  obtain ⟨rendered, rendering, spelled⟩ := unfolds.render_spelled readable
  refine ⟨_, rendered, unfolds.rootNode_eq, rendering, ?_⟩
  intro bracketed
  cases tree with
  | node label operands =>
      obtain ⟨shape, shown, compound⟩ :=
        Label.exists_shape bracketed (Tree.shapesAll operands)
      have spelledShape : Spelled [shape] rendered := shown ▸ spelled
      rw [Arena.ofText_accepts_iff spelledShape, compound,
        Tree.shapesAll_eq_map, List.map_eq_nil_iff, Label.children_node,
        List.map_eq_nil_iff]
      rfl

/-- In `(or (not (not p q)) r)` the squash leaves `q` below a tombstone, where
its brackets are toggled.  The rendering is read again. -/
theorem edited_rendering_read_iff_orphan : ∃ start arena root rendered again,
    Arena.ofText "(or (not (not p q)) r)" = .ok start ∧
    Arena.Run (fun _ action _ _ => action ≠ .replace) start arena ∧
    (∃ orphan ∈ arena.liveNodes, orphan.token = "q" ∧
      orphan.bracketed = false) ∧
    arena.rootNode = .ok root ∧ root.bracketed = true ∧
    arena.render {} = .ok rendered ∧
    Arena.ofText rendered = .ok again := by
  let negation : Node :=
    { id := 1, token := "not", parent := 0, children := [2]
      span := ⟨⟨0, 4⟩, ⟨0, 18⟩⟩ }
  let orphan : Node :=
    { id := 4, token := "q", parent := 2, span := ⟨⟨0, 16⟩, ⟨0, 16⟩⟩ }
  obtain ⟨start, squashed, toggled, root, read, negationLive, squashRan,
      orphanLive, toggleRan, kept, found, bracketed, operands⟩ :
      ∃ start squashed toggled root,
      Arena.ofText "(or (not (not p q)) r)" = .ok start ∧
      negation ∈ start.liveNodes ∧
      Action.squashNegation.run start negation.id [] .always =
        .ok squashed ∧
      orphan ∈ squashed.arena.liveNodes ∧
      Action.toggleBracket.run squashed.arena orphan.id [] .always =
        .ok toggled ∧
      { orphan with bracketed := false } ∈ toggled.arena.liveNodes ∧
      toggled.arena.rootNode = .ok root ∧
      root.bracketed = true ∧ root.children ≠ [] :=
    ⟨_, _, _, _, rfl, Arena.mem_liveNodes_iff.mpr ⟨1, rfl⟩, rfl,
      Arena.mem_liveNodes_iff.mpr ⟨4, rfl⟩, rfl,
      Arena.mem_liveNodes_iff.mpr ⟨4, rfl⟩, rfl, rfl, List.cons_ne_nil _ _⟩
  have run : Arena.Run (fun _ action _ _ => action ≠ .replace) start
      toggled.arena :=
    .step (.step .start negationLive squashRan (by decide)) orphanLive
      toggleRan (by decide)
  obtain ⟨_, rendered, foundAgain, rendering, readable⟩ :=
    edited_rendering_read_iff read run
  rw [found] at foundAgain
  cases foundAgain
  obtain ⟨reread, accepted⟩ :=
    (readable bracketed).mpr fun childless => absurd childless operands
  exact ⟨start, toggled.arena, root, rendered, reread, read, run,
    ⟨_, kept, rfl, rfl⟩, found, bracketed, rendering, accepted⟩

/-- Squashing `(not (not x))` leaves the name `x` alone, which has brackets as
the root but is rendered without, and cannot be read. -/
theorem squashed_rendering_not_read : ∃ start outcome root,
    Arena.ofText "(not (not x))" = .ok start ∧
    Action.squashNegation.run start 0 [] .always = .ok outcome ∧
    Arena.Run (fun _ action _ _ => action ≠ .replace) start outcome.arena ∧
    outcome.arena.rootNode = .ok root ∧ root.bracketed = true ∧
    outcome.arena.render {} = .ok "x" ∧
    ∀ again, Arena.ofText "x" ≠ .ok again := by
  let focus : Node :=
    { id := 0, token := "not", children := [1], span := ⟨⟨0, 0⟩, ⟨0, 12⟩⟩ }
  obtain ⟨start, outcome, root, read, live, ran, found, bracketed, rendered⟩ :
      ∃ start outcome root, Arena.ofText "(not (not x))" = .ok start ∧
      focus ∈ start.liveNodes ∧
      Action.squashNegation.run start focus.id [] .always = .ok outcome ∧
      outcome.arena.rootNode = .ok root ∧ root.bracketed = true ∧
      outcome.arena.render {} = .ok "x" :=
    ⟨_, _, _, rfl, by decide, rfl, rfl, rfl, rfl⟩
  refine ⟨start, outcome, root, read, ran, ?_, found, bracketed, rendered, ?_⟩
  · exact .step .start live ran (by decide)
  · intro again accepted
    have refused : Arena.ofText "x" = .error _ := rfl
    rw [refused] at accepted
    cases accepted

end FormulaEdit
