import FormulaEdit.Proofs.Tree.Rewriting
import Mathlib.Algebra.BigOperators.Group.List.Basic
import Mathlib.Algebra.Ring.Int.Defs

/-!
# The meaning of a formula

Truth values, integers and other things are what formulas stand for.  The
connectives and the arithmetic have their usual meaning; every other token is
up to an interpretation.  Meaning is partial and strict: a connective with the
wrong number or kind of operands has none, nor has anything around it.

Rewriting by a squash, a move or an implication keeps the meaning of every
formula that has one.
-/

namespace FormulaEdit

universe u

/-- What a formula can stand for. -/
inductive Value (Other : Type u) where
  | bool (value : Bool)
  | int (value : Int)
  | other (value : Other)
  deriving DecidableEq

namespace Value

variable {Other : Type u}

def bool? : Value Other → Option Bool
  | .bool value => some value
  | _ => none

def int? : Value Other → Option Int
  | .int value => some value
  | _ => none

end Value

/-- The meaning of the tokens that are not fixed: childless ones are
variables, the others functions of their operands. -/
structure Interpretation (Other : Type u) where
  assign : String → Option (Value Other)
  apply : String → List (Value Other) → Option (Value Other)

/-- The tokens with a fixed meaning. -/
inductive Connective where
  | not | and | or | implies
  | less | greater | atMost | atLeast
  | equal | sum | product
  deriving DecidableEq

namespace Connective

def ofToken? : String → Option Connective
  | "not" => some .not
  | "and" => some .and
  | "or" => some .or
  | "=>" => some .implies
  | "<" => some .less
  | ">" => some .greater
  | "<=" => some .atMost
  | ">=" => some .atLeast
  | "=" => some .equal
  | "+" => some .sum
  | "*" => some .product
  | _ => none

variable {Other : Type u}

/-- A comparison takes exactly two integers. -/
def compare (holds : Int → Int → Bool) :
    List (Value Other) → Option (Value Other)
  | [.int first, .int second] => some (.bool (holds first second))
  | _ => none

theorem compare_not {holds : Int → Int → Bool}
    {values : List (Value Other)} {truth : Bool}
    (compared : compare holds values = some (.bool truth)) :
    compare (fun first second => !holds first second) values =
      some (.bool !truth) := by
  unfold compare at compared ⊢
  split at compared <;> simp_all

/-- The value of a connective at the values of its operands. -/
def denote [DecidableEq Other] :
    Connective → List (Value Other) → Option (Value Other)
  | .not, [.bool operand] => some (.bool !operand)
  | .not, _ => none
  | .and, values => (values.mapM Value.bool?).map fun truths =>
      .bool (truths.all fun truth => truth)
  | .or, values => (values.mapM Value.bool?).map fun truths =>
      .bool (truths.any fun truth => truth)
  | .implies, [.bool premise, .bool conclusion] =>
      some (.bool (!premise || conclusion))
  | .implies, _ => none
  | .less, values => compare (fun first second => first < second) values
  | .greater, values => compare (fun first second => first > second) values
  | .atMost, values => compare (fun first second => first ≤ second) values
  | .atLeast, values => compare (fun first second => first ≥ second) values
  | .equal, values => some (.bool (decide
      (∀ first ∈ values, ∀ second ∈ values, first = second)))
  | .sum, values => (values.mapM Value.int?).map fun terms => .int terms.sum
  | .product, values =>
      (values.mapM Value.int?).map fun factors => .int factors.prod

end Connective

variable {Other : Type u} [DecidableEq Other]

/-- The value of a node with this token at the values of its operands. -/
def Interpretation.node (interpretation : Interpretation Other)
    (token : String) (values : List (Value Other)) : Option (Value Other) :=
  match Connective.ofToken? token with
  | some connective => connective.denote values
  | none =>
      if values.isEmpty then interpretation.assign token
      else interpretation.apply token values

namespace Tree

mutual

/-- The meaning of a formula, if it has one. -/
def meaning (interpretation : Interpretation Other) :
    Tree → Option (Value Other)
  | .node label operands => do
      let values ← meaningAll interpretation operands
      interpretation.node label.token values

/-- The meanings of formulas, if all of them have one. -/
def meaningAll (interpretation : Interpretation Other) :
    List Tree → Option (List (Value Other))
  | [] => some []
  | tree :: trees => do
      let value ← meaning interpretation tree
      let values ← meaningAll interpretation trees
      return value :: values

end

theorem meaningAll_eq_mapM (interpretation : Interpretation Other)
    (trees : List Tree) :
    meaningAll interpretation trees =
      trees.mapM (meaning interpretation) := by
  induction trees with
  | nil => rfl
  | cons tree trees induction =>
      rw [meaningAll, induction, List.mapM_cons]

@[simp] theorem meaning_node (interpretation : Interpretation Other)
    (label : Label) (operands : List Tree) :
    meaning interpretation (.node label operands) =
      (operands.mapM (meaning interpretation)).bind
        (interpretation.node label.token) := by
  rw [meaning, meaningAll_eq_mapM]
  rfl

end Tree

/-! ## Lists of partial results -/

section Lists

universe v w x

variable {α : Type v} {β : Type w} {γ : Type x}

theorem mapM_cons_eq_some_iff {partly : α → Option β} {item : α}
    {items : List α} {results : List β} :
    (item :: items).mapM partly = some results ↔
      ∃ first rest, partly item = some first ∧
        items.mapM partly = some rest ∧ first :: rest = results := by
  simp [List.mapM_cons, Option.bind_eq_some_iff]

theorem mapM_append_eq_some_iff {partly : α → Option β}
    {before after : List α} {results : List β} :
    (before ++ after).mapM partly = some results ↔
      ∃ front back, before.mapM partly = some front ∧
        after.mapM partly = some back ∧ front ++ back = results := by
  simp [List.mapM_append, Option.bind_eq_some_iff]

theorem length_of_mapM {partly : α → Option β} {items : List α}
    {results : List β} (all : items.mapM partly = some results) :
    results.length = items.length := by
  induction items generalizing results with
  | nil =>
      cases all
      rfl
  | cons item items induction =>
      obtain ⟨first, rest, _, found, rfl⟩ := mapM_cons_eq_some_iff.mp all
      simp [induction found]

theorem map_mapM_perm {partly : α → Option β} {whole : List β → γ}
    (invariant : ∀ {left right : List β}, left.Perm right →
      whole left = whole right)
    {left right : List α} (permutation : left.Perm right) :
    (left.mapM partly).map whole = (right.mapM partly).map whole := by
  induction permutation generalizing whole with
  | nil => rfl
  | cons item _ induction =>
      cases found : partly item with
      | none => simp [List.mapM_cons, found]
      | some first =>
          have rest := @induction (fun results => whole (first :: results))
            fun same => invariant (same.cons first)
          simpa [List.mapM_cons, found, Option.map_eq_bind,
            Option.bind_assoc, Function.comp_def] using rest
  | swap second first items =>
      cases foundFirst : partly first with
      | none =>
          cases foundSecond : partly second <;>
            simp [List.mapM_cons, foundFirst, foundSecond]
      | some one =>
          cases foundSecond : partly second with
          | none => simp [List.mapM_cons, foundFirst, foundSecond]
          | some two =>
              cases found : items.mapM partly with
              | none => simp [List.mapM_cons, foundFirst, foundSecond, found]
              | some rest =>
                  have swapped := invariant (List.Perm.swap one two rest)
                  simp [List.mapM_cons, foundFirst, foundSecond, found,
                    swapped]
  | trans _ _ first second => exact (first invariant).trans (second invariant)

end Lists

/-! ## Reordering -/

namespace Connective

/-- The connectives that do not depend on the order of their operands. -/
def ordersFreely : List Connective := [.sum, .product, .equal, .and, .or]

theorem denote_perm {connective : Connective}
    (free : connective ∈ ordersFreely) {left right : List (Value Other)}
    (permutation : left.Perm right) :
    connective.denote left = connective.denote right := by
  simp only [ordersFreely, List.mem_cons, List.not_mem_nil, or_false] at free
  rcases free with rfl | rfl | rfl | rfl | rfl
  case inr.inr.inl => simp only [denote, permutation.mem_iff]
  all_goals
    refine map_mapM_perm ?_ permutation
    intro left right same
  · rw [same.sum_eq]
  · rw [same.prod_eq]
  · rw [same.all_eq]
  · rw [same.any_eq]

theorem ofToken?_reorderable {token : String}
    (reorderable : token ∈ ["+", "*", "=", "and", "or"]) :
    ∃ connective ∈ ordersFreely, ofToken? token = some connective := by
  simp only [List.mem_cons, List.not_mem_nil, or_false] at reorderable
  rcases reorderable with rfl | rfl | rfl | rfl | rfl <;>
    exact ⟨_, by decide, rfl⟩

end Connective

theorem Interpretation.node_perm (interpretation : Interpretation Other)
    {token : String} (reorderable : token ∈ ["+", "*", "=", "and", "or"])
    {left right : List (Value Other)} (permutation : left.Perm right) :
    interpretation.node token left = interpretation.node token right := by
  obtain ⟨connective, free, fixed⟩ :=
    Connective.ofToken?_reorderable reorderable
  simp only [node, fixed]
  exact Connective.denote_perm free permutation

/-! ## Refinement -/

/-- Wherever the first formula has a meaning, the second has the same. -/
def Tree.Refines (interpretation : Interpretation Other)
    (before after : Tree) : Prop :=
  ∀ value, before.meaning interpretation = some value →
    after.meaning interpretation = some value

section Refinement

variable {interpretation : Interpretation Other}

theorem Tree.meaning_node_eq_some_iff {label : Label} {operands : List Tree}
    {value : Value Other} :
    (Tree.node label operands).meaning interpretation = some value ↔
      ∃ values, operands.mapM (Tree.meaning interpretation) = some values ∧
        interpretation.node label.token values = some value := by
  rw [Tree.meaning_node, Option.bind_eq_some_iff]

/-- A part of a formula can be exchanged for one that refines it. -/
theorem Tree.Refines.plug {before after : Tree}
    (refines : before.Refines interpretation after) (context : Context) :
    (context.plug before).Refines interpretation (context.plug after) := by
  induction context generalizing before after with
  | nil => exact refines
  | cons frame outer induction =>
      refine induction ?_
      intro value means
      obtain ⟨values, operands, applied⟩ :=
        Tree.meaning_node_eq_some_iff.mp means
      obtain ⟨front, back, frontMeans, backMeans, rfl⟩ :=
        mapM_append_eq_some_iff.mp operands
      obtain ⟨hole, rest, holeMeans, restMeans, rfl⟩ :=
        mapM_cons_eq_some_iff.mp backMeans
      refine Tree.meaning_node_eq_some_iff.mpr ⟨_, ?_, applied⟩
      exact mapM_append_eq_some_iff.mpr ⟨front, _, frontMeans,
        mapM_cons_eq_some_iff.mpr
          ⟨hole, rest, refines hole holeMeans, restMeans, rfl⟩, rfl⟩

theorem Tree.exists_meaning_of_plug {context : Context} {part : Tree}
    {value : Value Other}
    (means : (context.plug part).meaning interpretation = some value) :
    ∃ inner, part.meaning interpretation = some inner := by
  induction context generalizing part value with
  | nil => exact ⟨value, means⟩
  | cons frame outer induction =>
      obtain ⟨filled, filledMeans⟩ := induction means
      obtain ⟨values, operands, _⟩ :=
        Tree.meaning_node_eq_some_iff.mp filledMeans
      obtain ⟨_, back, _, backMeans, _⟩ :=
        mapM_append_eq_some_iff.mp operands
      obtain ⟨inner, _, innerMeans, _, _⟩ :=
        mapM_cons_eq_some_iff.mp backMeans
      exact ⟨inner, innerMeans⟩

/-- A negation with a meaning has exactly one operand, a truth value. -/
theorem Tree.meaning_not {label : Label} {operands : List Tree}
    {value : Value Other} (negation : label.token = "not") :
    (Tree.node label operands).meaning interpretation = some value ↔
      ∃ operand truth, operands = [operand] ∧
        operand.meaning interpretation = some (.bool truth) ∧
        value = .bool !truth := by
  rw [Tree.meaning_node_eq_some_iff, negation]
  constructor
  · rintro ⟨values, operandsMean, applied⟩
    have single : ∃ truth, values = [.bool truth] ∧ value = .bool !truth := by
      change Connective.not.denote values = some value at applied
      unfold Connective.denote at applied
      split at applied <;> simp_all
    obtain ⟨truth, rfl, rfl⟩ := single
    obtain ⟨operand, rfl⟩ :=
      List.length_eq_one_iff.mp (length_of_mapM operandsMean).symm
    obtain ⟨_, _, operandMeans, _, same⟩ :=
      mapM_cons_eq_some_iff.mp operandsMean
    cases same
    exact ⟨operand, truth, rfl, operandMeans, rfl⟩
  · rintro ⟨operand, truth, rfl, operandMeans, rfl⟩
    exact ⟨[.bool truth], by simp [operandMeans], rfl⟩

theorem Tree.refines_cancel {outer inner : Label} {heir : Tree}
    {others extras : List Tree} (outerNot : outer.token = "not")
    (innerNot : inner.token = "not") :
    (Tree.node outer (.node inner (heir :: others) :: extras)).Refines
      interpretation heir := by
  intro value means
  obtain ⟨operand, _, operands, operandMeans, rfl⟩ :=
    (Tree.meaning_not outerNot).mp means
  cases operands
  obtain ⟨_, truth, operands, heirMeans, same⟩ :=
    (Tree.meaning_not innerNot).mp operandMeans
  cases operands
  cases same
  simpa using heirMeans

theorem Interpretation.node_opposite {token opposite : String}
    {values : List (Value Other)} {truth : Bool}
    (opposites : token = "<" ∧ opposite = ">=" ∨
      token = ">" ∧ opposite = "<=")
    (compared : interpretation.node token values = some (.bool truth)) :
    interpretation.node opposite values = some (.bool !truth) := by
  have negated : ∀ first second : Int,
      decide (first ≥ second) = !decide (first < second) := by
    intro first second
    rw [← decide_not]
    simp
  rcases opposites with ⟨rfl, rfl⟩ | ⟨rfl, rfl⟩
  · have turned := Connective.compare_not compared
    simp only [← negated] at turned
    exact turned
  · have turned := Connective.compare_not compared
    simp only [gt_iff_lt, ← negated] at turned
    exact turned

theorem Tree.refines_absorb {outer inner : Label} {token : String}
    {operands extras : List Tree} (outerNot : outer.token = "not")
    (opposites : inner.token = "<" ∧ token = ">=" ∨
      inner.token = ">" ∧ token = "<=") :
    (Tree.node outer (.node inner operands :: extras)).Refines interpretation
      (.node { inner with token := token } operands) := by
  intro value means
  obtain ⟨operand, truth, same, operandMeans, rfl⟩ :=
    (Tree.meaning_not outerNot).mp means
  cases same
  obtain ⟨values, operandsMean, compared⟩ :=
    Tree.meaning_node_eq_some_iff.mp operandMeans
  exact Tree.meaning_node_eq_some_iff.mpr
    ⟨values, operandsMean, Interpretation.node_opposite opposites compared⟩

theorem Tree.refines_swap {label : Label}
    (reorderable : label.token ∈ ["+", "*", "=", "and", "or"])
    (before : List Tree) (first second : Tree) (after : List Tree) :
    (Tree.node label (before ++ first :: second :: after)).Refines
      interpretation
      (.node label (before ++ second :: first :: after)) := by
  intro value means
  obtain ⟨values, operandsMean, applied⟩ :=
    Tree.meaning_node_eq_some_iff.mp means
  obtain ⟨front, _, frontMeans, tailMeans, rfl⟩ :=
    mapM_append_eq_some_iff.mp operandsMean
  obtain ⟨one, _, oneMeans, restMeans, rfl⟩ :=
    mapM_cons_eq_some_iff.mp tailMeans
  obtain ⟨two, back, twoMeans, backMeans, rfl⟩ :=
    mapM_cons_eq_some_iff.mp restMeans
  have swapped : (front ++ one :: two :: back).Perm
      (front ++ two :: one :: back) :=
    (List.Perm.swap two one back).append_left front
  rw [interpretation.node_perm reorderable swapped] at applied
  refine Tree.meaning_node_eq_some_iff.mpr ⟨_, ?_, applied⟩
  simp [List.mapM_append, List.mapM_cons, frontMeans, oneMeans, twoMeans,
    backMeans]

/-- A disjunction says that its other branches hold unless one does. -/
theorem Tree.refines_imply {label negation rest : Label}
    (disjunction : label.token = "or") (negationNot : negation.token = "not")
    (restOr : rest.token = "or") (before : List Tree) (branch : Tree)
    (after : List Tree) :
    (Tree.node label (before ++ branch :: after)).Refines interpretation
      (.node { label with token := "=>" }
        [.node negation [branch], .node rest (before ++ after)]) := by
  intro value means
  obtain ⟨values, operandsMean, applied⟩ :=
    Tree.meaning_node_eq_some_iff.mp means
  obtain ⟨front, _, frontMeans, tailMeans, rfl⟩ :=
    mapM_append_eq_some_iff.mp operandsMean
  obtain ⟨one, back, oneMeans, backMeans, rfl⟩ :=
    mapM_cons_eq_some_iff.mp tailMeans
  rw [disjunction] at applied
  obtain ⟨truths, allTruths, rfl⟩ := Option.map_eq_some_iff.mp applied
  obtain ⟨frontTruths, _, frontTrue, tailTrue, rfl⟩ :=
    mapM_append_eq_some_iff.mp allTruths
  obtain ⟨truth, backTruths, oneTrue, backTrue, rfl⟩ :=
    mapM_cons_eq_some_iff.mp tailTrue
  obtain rfl : one = .bool truth := by
    cases one <;> simp_all [Value.bool?]
  have premise : (Tree.node negation [branch]).meaning interpretation =
      some (.bool !truth) :=
    (Tree.meaning_not negationNot).mpr ⟨branch, truth, rfl, oneMeans, rfl⟩
  have others : (Tree.node rest (before ++ after)).meaning interpretation =
      some (.bool ((frontTruths ++ backTruths).any fun truth => truth)) := by
    refine Tree.meaning_node_eq_some_iff.mpr ⟨front ++ back, ?_, ?_⟩
    · exact mapM_append_eq_some_iff.mpr
        ⟨front, back, frontMeans, backMeans, rfl⟩
    · rw [restOr]
      exact Option.map_eq_some_iff.mpr ⟨_, mapM_append_eq_some_iff.mpr
        ⟨frontTruths, backTruths, frontTrue, backTrue, rfl⟩, rfl⟩
  refine Tree.meaning_node_eq_some_iff.mpr
    ⟨_, mapM_cons_eq_some_iff.mpr ⟨_, _, premise,
      mapM_cons_eq_some_iff.mpr ⟨_, _, others, rfl, rfl⟩, rfl⟩, ?_⟩
  have disjoined : (!!truth ||
      (frontTruths ++ backTruths).any fun truth => truth) =
      (frontTruths ++ truth :: backTruths).any fun truth => truth := by
    simp [Bool.or_left_comm]
  rw [← disjoined]
  rfl

/-- Squashes, moves and implications keep meaning. -/
theorem Rewrites.refines {params : Json.Members} {focus : Int} {size : Nat}
    {action : Action} {before after : Tree}
    (rewrites : Rewrites params focus size action before after)
    (sound : action ∈ [.squashNegation, .move, .toImplication]) :
    before.Refines interpretation after := by
  cases rewrites with
  | cancel context heir others extras _ outerNot innerNot =>
      exact (Tree.refines_cancel outerNot innerNot).plug context
  | absorb context operands extras _ outerNot opposites =>
      exact (Tree.refines_absorb outerNot opposites).plug context
  | moveLeft context front neighbour moved back _ reorderable _ =>
      exact (Tree.refines_swap reorderable front neighbour moved back).plug
        context
  | moveRight context front moved neighbour back _ reorderable _ =>
      exact (Tree.refines_swap reorderable front moved neighbour back).plug
        context
  | imply context front branch back _ disjunction =>
      exact (Tree.refines_imply disjunction rfl rfl front branch back).plug
        context
  | _ => simp at sound

end Refinement

end FormulaEdit
