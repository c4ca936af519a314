import FormulaEdit.Proofs.Arena.Build
import FormulaEdit.Proofs.Result
import FormulaEdit.Proofs.Sexpr.Spans
import FormulaEdit.Proofs.Tree.Rewriting
import FormulaEdit.Proofs.Tree.Text

/-!
# Spans lie in one another like the nodes

In the tree of a text, the span of a node strictly contains the spans below
it, and the spans of two operands of a node share no position.  Rewriting
keeps this: it adds no known span, and it never hangs a node with a known span
below or beside one that it did not lie below or beside before.
-/

namespace FormulaEdit

namespace Span

theorem isKnown_of_contains {span : Span} {position : Position}
    (inside : span.contains position = true) : span.isKnown = true := by
  simp only [contains, Bool.and_eq_true] at inside
  exact inside.1.1

/-- One span has all positions of another and more. -/
def StrictlyContains (outer inner : Span) : Prop :=
  (∀ position, inner.contains position = true →
    outer.contains position = true) ∧
    ∃ position, outer.contains position = true ∧
      inner.contains position = false

/-- No position lies in both spans. -/
def Apart (first second : Span) : Prop :=
  ∀ position, first.contains position = true →
    second.contains position = false

theorem Apart.symm {first second : Span} (apart : first.Apart second) :
    second.Apart first := by
  intro position inSecond
  cases inFirst : first.contains position with
  | false => rfl
  | true =>
      rw [apart position inFirst] at inSecond
      cases inSecond

end Span

namespace Tree

/-- A known span of one of the nodes of a tree. -/
inductive HasSpan : Tree → Span → Prop where
  | here {label : Label} {operands : List Tree}
      (known : label.span.isKnown = true) :
      HasSpan (.node label operands) label.span
  | inner {label : Label} {operands : List Tree} {operand : Tree}
      {span : Span} (position : operand ∈ operands)
      (inside : HasSpan operand span) : HasSpan (.node label operands) span

/-- The spans of two trees share no position. -/
def Apart (left right : Tree) : Prop :=
  ∀ first second, left.HasSpan first → right.HasSpan second →
    first.Apart second

theorem Apart.symm {left right : Tree} (apart : left.Apart right) :
    right.Apart left := by
  intro first second inRight inLeft
  exact (apart second first inLeft inRight).symm

instance : Std.Symm Apart := ⟨fun _ _ apart => apart.symm⟩

end Tree

/-- The span of a node encloses those below it, and the spans of its operands
lie apart. -/
structure Label.Nests (label : Label) (operands : List Tree) : Prop where
  occupied : label.span.isKnown = true →
    ∃ position, label.span.contains position = true
  encloses : label.span.isKnown = true → ∀ operand ∈ operands, ∀ span,
    operand.HasSpan span → label.span.StrictlyContains span
  apart : operands.Pairwise Tree.Apart

namespace Tree

/-- The spans of a tree lie in one another like its nodes. -/
def Laminar (tree : Tree) : Prop := tree.Every Label.Nests

/-! ## Rewriting -/

/-- A tree has no spans but those of another, and lies in its spans as well as
the other did. -/
structure Thins (before after : Tree) : Prop where
  spans : ∀ span, after.HasSpan span → before.HasSpan span
  laminar : before.Laminar → after.Laminar

namespace Thins

theorem refl (tree : Tree) : tree.Thins tree :=
  ⟨fun _ has => has, fun laminar => laminar⟩

theorem trans {before middle after : Tree} (first : before.Thins middle)
    (second : middle.Thins after) : before.Thins after where
  spans := fun span has => first.spans span (second.spans span has)
  laminar := fun laminar => second.laminar (first.laminar laminar)

/-- A node may get other operands, each of them thinned from an old one, if
the spans of different operands still lie apart. -/
theorem operands {old new : Label} {before after : List Tree}
    (span : new.span = old.span)
    (each : ∀ operand ∈ after, ∃ origin ∈ before, origin.Thins operand)
    (apart : before.Pairwise Apart → after.Pairwise Apart) :
    (node old before).Thins (node new after) where
  spans := by
    intro span has
    cases has with
    | here known =>
        rw [span] at known ⊢
        exact .here known
    | inner position inside =>
        obtain ⟨origin, member, thins⟩ := each _ position
        exact .inner member (thins.spans _ inside)
  laminar := by
    intro laminar
    have nests := laminar.root
    apply Every.node
    · refine ⟨?_, ?_, apart nests.apart⟩
      · rw [span]
        exact nests.occupied
      · rw [span]
        intro known operand position inner inside
        obtain ⟨origin, member, thins⟩ := each operand position
        exact nests.encloses known origin member inner
          (thins.spans inner inside)
    · intro operand position
      obtain ⟨origin, member, thins⟩ := each operand position
      exact thins.laminar (laminar.operand origin member)

theorem exists_origin {before after : List Tree}
    (each : List.Forall₂ Thins before after) {operand : Tree}
    (position : operand ∈ after) :
    ∃ origin ∈ before, origin.Thins operand := by
  induction each with
  | nil => cases position
  | cons head tail induction =>
      rcases List.mem_cons.mp position with rfl | later
      · exact ⟨_, List.mem_cons_self, head⟩
      · obtain ⟨origin, member, thins⟩ := induction later
        exact ⟨origin, List.mem_cons_of_mem _ member, thins⟩

theorem pairwise_apart {before after : List Tree}
    (each : List.Forall₂ Thins before after)
    (apart : before.Pairwise Apart) : after.Pairwise Apart := by
  induction each with
  | nil => exact .nil
  | cons head tail induction =>
      obtain ⟨apartHead, apartTail⟩ := List.pairwise_cons.mp apart
      refine List.pairwise_cons.mpr ⟨?_, induction apartTail⟩
      intro operand position first second inHead inOperand
      obtain ⟨origin, member, thins⟩ := exists_origin tail position
      exact apartHead origin member first second (head.spans first inHead)
        (thins.spans second inOperand)

theorem node {old new : Label} {before after : List Tree}
    (span : new.span = old.span) (each : List.Forall₂ Thins before after) :
    (Tree.node old before).Thins (.node new after) := by
  apply operands span
  · intro operand position
    exact exists_origin each position
  · exact pairwise_apart each

theorem reorder {old new : Label} {before after : List Tree}
    (span : new.span = old.span) (permutation : after.Perm before) :
    (Tree.node old before).Thins (.node new after) := by
  apply operands span
  · intro operand position
    exact ⟨operand, permutation.mem_iff.mp position, .refl operand⟩
  · exact (permutation.pairwise_iff Apart.symm).mpr

theorem of_mem {label : Label} {operands : List Tree} {operand : Tree}
    (position : operand ∈ operands) :
    (Tree.node label operands).Thins operand where
  spans := fun _ has => .inner position has
  laminar := fun laminar => laminar.operand operand position

theorem plug {old new : Tree} (thins : old.Thins new) (context : Context) :
    (context.plug old).Thins (context.plug new) := by
  induction context generalizing old new with
  | nil => exact thins
  | cons frame outer induction =>
      have same : ∀ trees : List Tree, List.Forall₂ Thins trees trees :=
        fun trees => List.forall₂_same.mpr fun tree _ => .refl tree
      apply induction
      apply Thins.node rfl
      exact List.rel_append (same frame.before)
        (.cons thins (same frame.after))

end Thins

/-! ### Nodes without a span -/

theorem HasSpan.of_added {size : Nat} {token : String}
    {operands : List Tree} {span : Span}
    (has : (node (added size token) operands).HasSpan span) :
    ∃ operand ∈ operands, operand.HasSpan span := by
  cases has with
  | here known => cases known
  | inner position inside => exact ⟨_, position, inside⟩

theorem laminar_added {size : Nat} {token : String} {operands : List Tree}
    (apart : operands.Pairwise Apart)
    (below : ∀ operand ∈ operands, operand.Laminar) :
    (node (added size token) operands).Laminar := by
  refine .node ⟨?_, ?_, apart⟩ below
  · intro known
    cases known
  · intro known
    cases known

/-- The first operand of a node and the others may be parted under two nodes
without a span. -/
theorem Thins.part {label new : Label} {branch : Tree} {others : List Tree}
    {size : Nat} {premise conclusion : String} (span : new.span = label.span) :
    (Tree.node label (branch :: others)).Thins
      (.node new [.node (added size premise) [branch],
        .node (added (size + 1) conclusion) others]) := by
  have spans : ∀ operand ∈ [Tree.node (added size premise) [branch],
      .node (added (size + 1) conclusion) others], ∀ span,
      operand.HasSpan span →
        ∃ origin ∈ branch :: others, origin.HasSpan span := by
    intro operand position span has
    simp only [List.mem_cons, List.not_mem_nil, or_false] at position
    rcases position with rfl | rfl
    · obtain ⟨origin, member, inside⟩ := has.of_added
      rw [List.mem_singleton] at member
      exact ⟨origin, List.mem_cons.mpr (.inl member), inside⟩
    · obtain ⟨origin, member, inside⟩ := has.of_added
      exact ⟨origin, List.mem_cons_of_mem branch member, inside⟩
  constructor
  · intro inner has
    cases has with
    | here known =>
        rw [span] at known ⊢
        exact .here known
    | inner position inside =>
        obtain ⟨origin, member, within⟩ := spans _ position _ inside
        exact .inner member within
  · intro laminar
    have nests := laminar.root
    obtain ⟨branchApart, othersApart⟩ := List.pairwise_cons.mp nests.apart
    obtain ⟨branchBelow, othersBelow⟩ :=
      List.forall_mem_cons.mp laminar.operand
    apply Every.node
    · refine ⟨?_, ?_, ?_⟩
      · rw [span]
        exact nests.occupied
      · rw [span]
        intro known operand position inner inside
        obtain ⟨origin, member, within⟩ := spans operand position inner inside
        exact nests.encloses known origin member inner within
      · rw [List.pairwise_pair]
        intro first second inPremise inConclusion
        obtain ⟨origin, member, inside⟩ := inPremise.of_added
        rw [List.mem_singleton] at member
        subst member
        obtain ⟨other, otherMember, otherInside⟩ := inConclusion.of_added
        exact branchApart other otherMember first second inside otherInside
    · rw [List.forall_mem_cons, List.forall_mem_singleton]
      constructor
      · apply laminar_added (List.pairwise_singleton _ _)
        rw [List.forall_mem_singleton]
        exact branchBelow
      · exact laminar_added othersApart othersBelow

/-! ### Replacements -/

theorem thins_substituteAll {replacement : Rule.Replacement}
    {before after : List Tree}
    (each : ∀ tree ∈ before, ∀ thinned,
      tree.substitute replacement = .ok thinned → tree.Thins thinned)
    (substituted : substituteAll replacement before = .ok after) :
    List.Forall₂ Thins before after := by
  induction before generalizing after with
  | nil =>
      rw [substituteAll] at substituted
      cases substituted
      exact .nil
  | cons tree trees induction =>
      rw [substituteAll] at substituted
      obtain ⟨head, first, rest⟩ := Result.bind_eq_ok_iff.mp substituted
      obtain ⟨tail, later, made⟩ := Result.bind_eq_ok_iff.mp rest
      cases made
      obtain ⟨here, below⟩ := List.forall_mem_cons.mp each
      exact .cons (here head first) (induction below later)

theorem thins_substitute {replacement : Rule.Replacement}
    {before after : Tree}
    (substituted : before.substitute replacement = .ok after) :
    before.Thins after := by
  induction before generalizing after with
  | node label operands induction =>
      rw [substitute] at substituted
      obtain ⟨token, _, rest⟩ := Result.bind_eq_ok_iff.mp substituted
      obtain ⟨below, later, made⟩ := Result.bind_eq_ok_iff.mp rest
      cases made
      refine .node rfl (thins_substituteAll ?_ later)
      intro operand position thinned substituted
      exact induction operand position substituted

end Tree

/-- Rewriting adds no known span and keeps spans laminar. -/
theorem Rewrites.thins {params : Json.Members} {focus : Int} {size : Nat}
    {action : Action} {before after : Tree}
    (rewrites : Rewrites params focus size action before after) :
    before.Thins after := by
  cases rewrites with
  | cancel context heir others extras =>
      apply Tree.Thins.plug
      exact (Tree.Thins.of_mem List.mem_cons_self).trans
        (.of_mem List.mem_cons_self)
  | absorb context operands extras =>
      apply Tree.Thins.plug
      exact (Tree.Thins.of_mem List.mem_cons_self).trans
        (.reorder rfl (.refl operands))
  | moveLeft context before neighbour moved after =>
      apply Tree.Thins.plug
      exact .reorder rfl ((List.Perm.swap neighbour moved after).append_left
        before)
  | moveRight context before moved neighbour after =>
      apply Tree.Thins.plug
      exact .reorder rfl ((List.Perm.swap moved neighbour after).append_left
        before)
  | flip context first second =>
      apply Tree.Thins.plug
      exact .reorder rfl (.swap first second [])
  | imply context before branch after =>
      apply Tree.Thins.plug
      exact (Tree.Thins.reorder rfl List.perm_middle.symm).trans (.part rfl)
  | substitute _ substituted => exact Tree.thins_substitute substituted
  | toggleBreak context operands =>
      apply Tree.Thins.plug
      exact .reorder rfl (.refl operands)
  | toggleBracket context operands =>
      apply Tree.Thins.plug
      exact .reorder rfl (.refl operands)

/-! ## Reading -/

theorem Position.le_iff {first second : Position} :
    first.le second = true ↔ first.key ≤ second.key := by
  simp only [Position.le, Position.key, Prod.Lex.toLex_le_toLex,
    Bool.or_eq_true, Bool.and_eq_true, decide_eq_true_eq, beq_iff_eq]

namespace Sexpr

/-- A way to place the indices of a text: in reading order, and from line zero
on. -/
structure Places (places : Nat → Position) : Prop where
  growing : StrictMono fun index => (places index).key
  natural : ∀ index, 0 ≤ (places index).line

/-- A span goes from one index to another, both in a range. -/
def Within (places : Nat → Position) (low high : Nat) (span : Span) : Prop :=
  ∃ first last, low ≤ first ∧ first ≤ last ∧ last < high ∧
    span = ⟨places first, places last⟩

section

variable {places : Nat → Position} (ordered : Places places)

include ordered

theorem Places.contains_iff {first last : Nat} {position : Position} :
    Span.contains ⟨places first, places last⟩ position = true ↔
      (places first).key ≤ position.key ∧
        position.key ≤ (places last).key := by
  have known : 0 ≤ (places first).line := ordered.natural first
  simp only [Span.contains, Span.isKnown, known, decide_true, Bool.true_and,
    Bool.and_eq_true, Position.le_iff]

theorem Places.lt {first second : Nat} (before : first < second) :
    (places first).key < (places second).key :=
  ordered.growing before

theorem Places.le {first second : Nat} (before : first ≤ second) :
    (places first).key ≤ (places second).key :=
  ordered.growing.monotone before

theorem Within.occupied {low high : Nat} {span : Span}
    (within : Within places low high span) :
    ∃ position, span.contains position = true := by
  obtain ⟨first, last, _, forward, _, rfl⟩ := within
  exact ⟨places first,
    ordered.contains_iff.mpr ⟨le_refl _, ordered.le forward⟩⟩

theorem Within.apart {low middle next high : Nat} {first second : Span}
    (before : Within places low middle first)
    (after : Within places next high second) (behind : middle ≤ next) :
    first.Apart second := by
  obtain ⟨start, stop, _, _, stopBound, rfl⟩ := before
  obtain ⟨startAgain, stopAgain, startBound, _, _, rfl⟩ := after
  intro position inFirst
  rw [Bool.eq_false_iff]
  intro inSecond
  have upper := (ordered.contains_iff.mp inFirst).2
  have lower := (ordered.contains_iff.mp inSecond).1
  have between := ordered.lt (show stop < startAgain by omega)
  exact absurd (lower.trans upper) (not_le.mpr between)

theorem Within.enclosed {first last : Nat} {inner : Span}
    (within : Within places (first + 1) last inner) :
    Span.StrictlyContains ⟨places first, places last⟩ inner := by
  obtain ⟨start, stop, lower, forward, upper, rfl⟩ := within
  have startsLater := ordered.lt (show first < start by omega)
  constructor
  · intro position inside
    obtain ⟨behind, before⟩ := ordered.contains_iff.mp inside
    exact ordered.contains_iff.mpr ⟨startsLater.le.trans behind,
      before.trans (ordered.le (by omega))⟩
  · refine ⟨places first, ?_, ?_⟩
    · exact ordered.contains_iff.mpr
        ⟨le_refl _, ordered.le (by omega)⟩
    · rw [Bool.eq_false_iff]
      intro inside
      exact absurd (ordered.contains_iff.mp inside).1
        (not_le.mpr startsLater)

end

theorem Within.mono {places : Nat → Position} {low lower high higher : Nat}
    {span : Span} (within : Within places low high span)
    (below : lower ≤ low) (above : high ≤ higher) :
    Within places lower higher span := by
  obtain ⟨first, last, firstBound, forward, lastBound, same⟩ := within
  exact ⟨first, last, by omega, forward, by omega, same⟩

/-- Trees stand side by side in a range of a text. -/
structure LaidOut (places : Nat → Position) (low high : Nat)
    (trees : List Tree) : Prop where
  laminar : ∀ tree ∈ trees, tree.Laminar
  apart : trees.Pairwise Tree.Apart
  within : ∀ tree ∈ trees, ∀ span, tree.HasSpan span →
    Within places low high span

namespace LaidOut

variable {places : Nat → Position} {low high : Nat}

theorem nil : LaidOut places low high [] :=
  ⟨by simp, .nil, by simp⟩

theorem mono {lower higher : Nat} {trees : List Tree}
    (laid : LaidOut places low high trees) (below : lower ≤ low)
    (above : high ≤ higher) : LaidOut places lower higher trees where
  laminar := laid.laminar
  apart := laid.apart
  within := fun tree position span has =>
    (laid.within tree position span has).mono below above

theorem append (ordered : Places places) {middle : Nat}
    {first second : List Tree} (before : LaidOut places low middle first)
    (after : LaidOut places middle high second) (forward : low ≤ middle)
    (upward : middle ≤ high) : LaidOut places low high (first ++ second) where
  laminar := List.forall_mem_append.mpr ⟨before.laminar, after.laminar⟩
  apart := by
    refine List.pairwise_append.mpr ⟨before.apart, after.apart, ?_⟩
    intro left inFirst right inSecond leftSpan rightSpan hasLeft hasRight
    exact (before.within left inFirst leftSpan hasLeft).apart ordered
      (after.within right inSecond rightSpan hasRight) (Nat.le_refl middle)
  within := by
    rw [List.forall_mem_append]
    exact ⟨(before.mono (Nat.le_refl low) upward).within,
      (after.mono forward (Nat.le_refl high)).within⟩

theorem node (ordered : Places places) {label : Label} {operands : List Tree}
    (laid : LaidOut places (low + 1) high operands)
    (span : label.span = ⟨places low, places high⟩) (forward : low ≤ high) :
    LaidOut places low (high + 1) [.node label operands] := by
  have here : Within places low (high + 1) label.span :=
    ⟨low, high, Nat.le_refl low, forward, Nat.lt_succ_self high, span⟩
  refine ⟨?_, List.pairwise_singleton _ _, ?_⟩
  · rw [List.forall_mem_singleton]
    refine .node ⟨?_, ?_, laid.apart⟩ laid.laminar
    · intro _
      exact here.occupied ordered
    · intro _ operand position inner has
      rw [span]
      exact (laid.within operand position inner has).enclosed ordered
  · rw [List.forall_mem_singleton]
    intro inner has
    cases has with
    | here known => exact here
    | inner position inside =>
        exact (laid.within _ position inner inside).mono (by omega) (by omega)

end LaidOut

section

variable {places : Nat → Position} (ordered : Places places)

include ordered

mutual

theorem Fills.laidOut {index : Nat} {expr : Expr} {body : List Char}
    (fills : Fills places index expr body) (id : Nat) :
    LaidOut places index (index + body.length) [Tree.ofExpr id expr] := by
  cases fills with
  | atom nonempty units =>
      have positive := List.length_pos_iff.mpr nonempty
      rw [Tree.ofExpr]
      apply (LaidOut.node ordered .nil rfl (by omega)).mono
      · omega
      · omega
  | @compound _ items inside filled =>
      have ends : index + ('(' :: (inside ++ [')'])).length =
          index + inside.length + 1 + 1 := by
        rw [List.length_cons, List.length_append, List.length_singleton]
        omega
      have forward : index ≤ index + inside.length + 1 := by omega
      rw [ends]
      cases filled with
      | nil blank =>
          rw [Tree.ofExpr]
          exact .node ordered .nil rfl forward
      | @cons _ head rest gap text others blank first apart later =>
          have inner : (gap ++ text ++ others).length =
              gap.length + text.length + others.length := by
            rw [List.length_append, List.length_append]
          rw [Tree.ofExpr]
          cases Arena.operatorOf? head with
          | some operator =>
              apply LaidOut.node ordered _ rfl forward
              apply (FillsItems.laidOut later (id + 1)).mono
              · omega
              · omega
          | none =>
              apply LaidOut.node ordered _ rfl forward
              have before := Fills.laidOut first (id + 1)
              have after := FillsItems.laidOut later
                (id + 1 + (Tree.ofExpr (id + 1) head).ids.length)
              apply (before.append ordered after (by omega) (by omega)).mono
              · omega
              · omega

theorem FillsItems.laidOut {index : Nat} {items : List Expr}
    {inside : List Char} (fills : FillsItems places index items inside)
    (next : Nat) :
    LaidOut places index (index + inside.length)
      (Tree.ofExprs next items) := by
  cases fills with
  | nil blank =>
      rw [Tree.ofExprs]
      exact .nil
  | @cons _ head rest gap text others blank first apart later =>
      rw [Tree.ofExprs]
      have before := Fills.laidOut first next
      have after := FillsItems.laidOut later
        (next + (Tree.ofExpr next head).ids.length)
      have both := (before.mono (Nat.le_add_right index gap.length)
        (Nat.le_refl _)).append ordered after (by omega) (by omega)
      rw [List.length_append, List.length_append]
      apply both.mono (Nat.le_refl _)
      omega

end

end

theorem places_place (text : List Char) : Places (place text) where
  growing := strictMono_place text
  natural := fun index => Int.natCast_nonneg (breaksBefore text index).length

theorem exists_fills_of_read {text : String} {expr : Expr}
    (ok : read text = .ok expr) :
    ∃ index body, Fills (place text.toList) index expr body := by
  obtain ⟨found, split, together⟩ := Result.bind_eq_ok_iff.mp ok
  obtain ⟨_, rfl⟩ := ofLexemes_lexemes together
  have located := located_of_lexemes split
  rw [← List.append_nil expr.lexemes] at located
  obtain ⟨gap, body, rest, _, _, fills, _⟩ := located.exists_fills expr
  exact ⟨_, body, fills⟩

/-- The spans of what is read lie in one another like the nodes. -/
theorem laminar_of_read {text : String} {expr : Expr}
    (ok : read text = .ok expr) : (Tree.ofExpr 0 expr).Laminar := by
  obtain ⟨index, body, fills⟩ := exists_fills_of_read ok
  have laid := fills.laidOut (places_place text.toList) 0
  exact laid.laminar _ List.mem_cons_self

end Sexpr

end FormulaEdit
