import FormulaEdit.Proofs.Replay.Plan
import FormulaEdit.Proofs.Rule.Literal
import FormulaEdit.Proofs.Rule.Preservation
import Mathlib.Algebra.Order.BigOperators.Group.List
import Mathlib.Algebra.Order.Ring.Nat

/-!
# Replaying the replacement of a text

A replacement may bring about new occurrences of the text, so a record that
asks for one may be carried out many times.  Each change makes the tokens
shorter as a whole if the target is shorter than the source; if the source
stands inside the target, it is still there after each change.
-/

namespace FormulaEdit

/-- The length of all live tokens together. -/
def Arena.tokenLength (arena : Arena) : Nat :=
  (arena.liveNodes.map fun node => node.token.length).sum

namespace Rule.Literal

variable {literal : Literal} {arena : Arena} {node : Node}

theorem isLive_onNode (literal : Literal) (node : Node) :
    (literal.onNode node).isLive = node.isLive := by
  rw [onNode]
  split
  next => rfl
  next => rfl

theorem children_onNode (literal : Literal) (node : Node) :
    (literal.onNode node).children = node.children := by
  rw [onNode]
  split
  next => rfl
  next => rfl

theorem liveNodes_outcome (literal : Literal) (arena : Arena) :
    (literal.outcome arena).arena.liveNodes =
      arena.liveNodes.map literal.onNode := by
  rw [Arena.liveNodes, slots_outcome, Array.toList_map, List.filter_map]
  congr 1
  refine List.filter_congr fun node _ => ?_
  exact literal.isLive_onNode node

theorem token_onNode (shown : node.isPlainList = false)
    (live : node.isLive = true) :
    (literal.onNode node).token = literal.onToken node.token := by
  simp [onNode, shown, live]

/-! ## Shrinking tokens -/

theorem length_onToken_lt (nonempty : literal.source ≠ "")
    (shorter : literal.target.length < literal.source.length)
    {token : String} (changes : literal.onToken token ≠ token) :
    (literal.onToken token).length < token.length := by
  rw [← String.length_toList, ← String.length_toList]
  rcases (replaces nonempty token).eq_or_length_lt shorter with same | less
  · exact absurd (String.toList_inj.mp same) changes
  · exact less

theorem tokenLength_lt {next : Arena} (nonempty : literal.source ≠ "")
    (shorter : literal.target.length < literal.source.length)
    (live : next.liveNodes = arena.liveNodes.map literal.onNode)
    (changes : ∃ node ∈ arena.liveNodes, literal.Changes node) :
    next.tokenLength < arena.tokenLength := by
  rw [Arena.tokenLength, live, List.map_map]
  have kept : ∀ node, ¬literal.Changes node → literal.onNode node = node :=
    fun node same => onNode_of_unchanged fun _ => same
  have less : ∀ node ∈ arena.liveNodes, literal.Changes node →
      (literal.onNode node).token.length < node.token.length := by
    intro node member changes
    obtain ⟨_, live⟩ := List.mem_filter.mp member
    rw [token_onNode changes.1 live]
    exact length_onToken_lt nonempty shorter changes.2
  refine List.sum_lt_sum _ _ ?_ ?_
  · intro node member
    by_cases changes : literal.Changes node
    · exact Nat.le_of_lt (less node member changes)
    · exact Nat.le_of_eq
        (congrArg (fun node => node.token.length) (kept node changes))
  · obtain ⟨node, member, changes⟩ := changes
    exact ⟨node, member, less node member changes⟩

/-! ## Growing tokens -/

/-- A node that is not a plain list holds the text to be replaced. -/
def Occurs (literal : Literal) (node : Node) : Prop :=
  node.isPlainList = false ∧ literal.source.toList <:+: node.token.toList

instance (literal : Literal) (node : Node) : Decidable (literal.Occurs node) :=
  inferInstanceAs (Decidable (_ ∧ _))

theorem Occurs.grows (occurs : literal.Occurs node)
    (nonempty : literal.source ≠ "")
    (inside : literal.source.toList <:+: literal.target.toList)
    (other : literal.target ≠ literal.source) :
    literal.source.toList <:+: (literal.onToken node.token).toList ∧
      node.token.length < (literal.onToken node.token).length := by
  have more : (if literal.count = 0 then none else some literal.count) ≠
      some 0 := by
    split
    next => exact Option.some_ne_none 0 ∘ Eq.symm
    next counted => exact counted ∘ Option.some.inj
  rw [← String.length_toList, ← String.length_toList]
  exact (replaces nonempty node.token).grows inside
    (other ∘ String.toList_inj.mp) occurs.2 more

/-- What is replaced by a text that holds it occurs again. -/
theorem Occurs.onNode (occurs : literal.Occurs node)
    (nonempty : literal.source ≠ "")
    (inside : literal.source.toList <:+: literal.target.toList)
    (other : literal.target ≠ literal.source) (live : node.isLive = true)
    (spares : ¬literal.Spoils node) : literal.Occurs (literal.onNode node) := by
  have token := @token_onNode literal _ occurs.1 live
  refine ⟨?_, by rw [token]; exact (occurs.grows nonempty inside other).1⟩
  rw [Bool.eq_false_iff]
  intro plain
  rw [Node.isPlainList, token, children_onNode, Bool.and_eq_true,
    beq_iff_eq, Bool.not_eq_true', List.isEmpty_eq_false_iff] at plain
  exact spares ⟨occurs.1, .inr plain⟩

end Rule.Literal

namespace Record

variable {literal : Rule.Literal} {record : Record} {arena : Arena}

/-- A step fails at a node that it would spoil, finds nothing to change, or
changes every token. -/
theorem step_literal (action : record.action = .replace)
    (always : record.condition = .always)
    (asked : literal.Asked record.params) (valid : arena.validate = .ok ()) :
    (∃ fault, record.step arena = .error (.params fault)) ∨
      (record.step arena = .ok none ∧
        ∀ node ∈ arena.liveNodes, ¬literal.Changes node) ∨
      ∃ next, record.step arena = .ok (some next) ∧
        next.validate = .ok () ∧
        next.liveNodes = arena.liveNodes.map literal.onNode ∧
        (∃ node ∈ arena.liveNodes, literal.Changes node) ∧
        ∀ node ∈ arena.liveNodes, ¬literal.Spoils node := by
  obtain ⟨tree, presents⟩ := Arena.validate_eq_ok_iff.mp valid
  have run : ∀ node ∈ arena.liveNodes, _ := fun node member =>
    asked.run (presents.live_of_mem member)
      (show Condition.holds arena node .always = .ok true from rfl)
  by_cases spoils : ∃ node ∈ arena.liveNodes, literal.Spoils node
  · left
    obtain ⟨spoiled, member, spoils⟩ := spoils
    obtain ⟨first, rest, nodes⟩ := List.exists_cons_of_ne_nil
      (List.ne_nil_of_mem member)
    rcases run first (by rw [nodes]; exact List.mem_cons_self) with
      ⟨other, _, _, failed⟩ | ⟨spares, _⟩
    · refine ⟨.reserved other.id other.token (literal.onToken other.token), ?_⟩
      rw [step, nodes, firstChange, tryAt, action, always, failed]
      rfl
    · exact absurd spoils (spares spoiled member)
  · right
    have spares : ∀ node ∈ arena.liveNodes, ¬literal.Spoils node :=
      fun node member bad => spoils ⟨node, member, bad⟩
    have tries : ∀ node ∈ arena.liveNodes, record.Tries arena
        (fun _ => ¬∃ node ∈ arena.liveNodes, literal.Changes node)
        (fun _ edited => (∃ node ∈ arena.liveNodes, literal.Changes node) ∧
          (literal.outcome arena).arena = edited.refresh) node := by
      intro node member
      rcases run node member with ⟨other, inside, bad, _⟩ | ⟨_, ran⟩
      · exact absurd bad (spares other inside)
      rw [← action, ← always, Rule.Literal.outcome] at ran
      rw [Rule.Literal.outcome]
      split at ran
      next changes =>
        rw [if_pos changes]
        exact .inr ⟨_, tryAt_of_ok ran, changes, rfl⟩
      next none => exact .inl ⟨tryAt_of_ok ran, none⟩
    rcases firstChange_cases tries with
      ⟨settled, idle⟩ | ⟨node, member, edited, ⟨changes, same⟩, stepped, tried⟩
    · refine .inl ⟨settled, fun node member changes => ?_⟩
      exact idle node member ⟨node, member, changes⟩
    · refine .inr ⟨edited.refresh, stepped, ?_, ?_, changes, spares⟩
      · exact Action.validate_run valid member (tryAt_changed tried rfl)
          fun lossy => by rw [action] at lossy; cases lossy.1
      · rw [← same]
        exact literal.liveNodes_outcome arena

end Record

namespace Replay

variable {literal : Rule.Literal} {record : Record} {arena : Arena}

theorem runFrom_shrinks (action : record.action = .replace)
    (always : record.condition = .always)
    (asked : literal.Asked record.params)
    (shorter : literal.target.length < literal.source.length)
    (budget : Int) (left : Nat) (valid : arena.validate = .ok ())
    (enough : arena.tokenLength ≤ left) :
    (∃ result, runFrom budget 0 left [record] arena = .ok result) ∨
      ∃ fault, runFrom budget 0 left [record] arena =
        .error (.params fault) := by
  induction left using Nat.strongRecOn generalizing arena with
  | ind left induction =>
      rcases Record.step_literal action always asked valid with
        ⟨fault, failed⟩ | ⟨settled, _⟩ |
        ⟨next, stepped, still, live, changes, _⟩
      · exact .inr ⟨fault, runFrom_of_failed failed⟩
      · exact .inl ⟨arena, runFrom_of_settled settled⟩
      · have less := Rule.Literal.tokenLength_lt asked.nonempty shorter live
          changes
        cases left with
        | zero => omega
        | succ left =>
            rw [runFrom_of_change stepped]
            exact induction left (Nat.lt_succ_self left) still (by omega)

/-- A replay of a text that its replacement holds never ends by itself. -/
theorem runFrom_grows (action : record.action = .replace)
    (always : record.condition = .always)
    (asked : literal.Asked record.params)
    (inside : literal.source.toList <:+: literal.target.toList)
    (other : literal.target ≠ literal.source)
    (budget : Int) (left : Nat) (valid : arena.validate = .ok ())
    (occurs : ∃ node ∈ arena.liveNodes, literal.Occurs node) :
    runFrom budget 0 left [record] arena =
        .error (exceeded 0 record budget) ∨
      ∃ fault, runFrom budget 0 left [record] arena =
        .error (.params fault) := by
  induction left using Nat.strongRecOn generalizing arena with
  | ind left induction =>
      obtain ⟨node, member, occurs⟩ := occurs
      have grows := occurs.grows asked.nonempty inside other
      rcases Record.step_literal action always asked valid with
        ⟨fault, failed⟩ | ⟨_, idle⟩ | ⟨next, stepped, still, live, _, spares⟩
      · exact .inr ⟨fault, runFrom_of_failed failed⟩
      · -- An occurrence makes its token longer, so there is a change.
        refine absurd ⟨occurs.1, fun same => ?_⟩ (idle node member)
        rw [same] at grows
        exact Nat.lt_irrefl _ grows.2
      · cases left with
        | zero => exact .inl (runFrom_of_excess stepped)
        | succ left =>
            rw [runFrom_of_change stepped]
            refine induction left (Nat.lt_succ_self left) still
              ⟨literal.onNode node, ?_, ?_⟩
            · rw [live]
              exact List.mem_map_of_mem member
            · exact occurs.onNode asked.nonempty inside other
                (List.mem_filter.mp member).2 (spares node member)

end Replay

/-- A record that replaces a text everywhere settles if the replacement is
shorter, within as many changes as the live tokens have characters.  If the
replacement holds the text and is not the text itself, no budget is enough
once it occurs.  In both cases the replay may also stop at a node that would
be spoiled. -/
theorem replacing_text_settles_by_length {literal : Rule.Literal}
    {record : Record} {arena : Arena} (action : record.action = .replace)
    (always : record.condition = .always)
    (asked : literal.Asked record.params) (valid : arena.validate = .ok ()) :
    (literal.target.length < literal.source.length →
      ∀ budget : Int, (arena.tokenLength : Int) ≤ budget →
        (∃ result, Stack.replay { records := [record] } budget arena =
          .ok result) ∨
        ∃ fault, Stack.replay { records := [record] } budget arena =
          .error (.params fault)) ∧
    (literal.source.toList <:+: literal.target.toList →
      literal.target ≠ literal.source →
      (∃ node ∈ arena.liveNodes, literal.Occurs node) →
      ∀ budget : Int,
        Stack.replay { records := [record] } budget arena =
          .error (Replay.exceeded 0 record budget) ∨
        ∃ fault, Stack.replay { records := [record] } budget arena =
          .error (.params fault)) := by
  refine ⟨fun shorter budget enough => ?_,
    fun inside other occurs budget => ?_⟩
  · exact Replay.runFrom_shrinks action always asked shorter budget _ valid
      (by omega)
  · exact Replay.runFrom_grows action always asked inside other budget _ valid
      occurs

/-- In `aaab` each replacement of `ab` by `b` makes the next one possible,
and replacing `a` by `ba` never comes to an end. -/
theorem replacing_text_settles_by_length_seam :
    ∃ (shrink grow : Record) (start : Arena),
      Arena.ofText "(and aaab c)" = .ok start ∧
      start.validate = .ok () ∧ start.tokenLength = 8 ∧
      (∀ budget : Int, 8 ≤ budget →
        (∃ result, Stack.replay { records := [shrink] } budget start =
          .ok result) ∨
        ∃ fault, Stack.replay { records := [shrink] } budget start =
          .error (.params fault)) ∧
      (Stack.replay { records := [shrink] } 3 start).toOption.map
        (fun result => result.liveNodes.map Node.token) =
          some ["and", "b", "c"] ∧
      ∀ budget : Int,
        Stack.replay { records := [grow] } budget start =
          .error (Replay.exceeded 0 grow budget) ∨
        ∃ fault, Stack.replay { records := [grow] } budget start =
          .error (.params fault) := by
  let shrinks : Rule.Literal := ⟨"ab", "b", 1⟩
  let grows : Rule.Literal := ⟨"a", "ba", 0⟩
  let shrink : Record :=
    { action := .replace
      params := [("source", .str "ab"), ("target", .str "b")] }
  let grow : Record :=
    { action := .replace
      params := [("source", .str "a"), ("target", .str "ba"),
        ("count", .int 0)] }
  have shown : (do
      let start ← Arena.ofText "(and aaab c)"
      let _ ← start.validate
      let result ← Stack.replay { records := [shrink] } 3 start
      return (start.tokenLength, result.liveNodes.map Node.token,
        decide (∃ node ∈ start.liveNodes, grows.Occurs node))).toOption =
      some (8, ["and", "b", "c"], true) := by
    decide +kernel
  obtain ⟨start, read, rest⟩ :=
    Result.bind_eq_ok_iff.mp (Result.toOption_eq_some_iff.mp shown)
  obtain ⟨_, valid, rest⟩ := Result.bind_eq_ok_iff.mp rest
  obtain ⟨result, replayed, last⟩ := Result.bind_eq_ok_iff.mp rest
  simp only [pure, Except.pure, Except.ok.injEq, Prod.mk.injEq,
    decide_eq_true_eq] at last
  obtain ⟨length, tokens, occurs⟩ := last
  have shrinking : shrinks.Asked shrink.params :=
    { source := rfl, target := rfl, count := rfl, plain := rfl
      nonempty := by decide, bounded := by decide }
  have growing : grows.Asked grow.params :=
    { source := rfl, target := rfl, count := rfl, plain := rfl
      nonempty := by decide, bounded := by decide }
  refine ⟨shrink, grow, start, read, valid, length, ?_, ?_, ?_⟩
  · intro budget enough
    exact (replacing_text_settles_by_length rfl rfl shrinking valid).1
      (by decide) budget (by omega)
  · rw [replayed]
    exact congrArg some tokens
  · exact (replacing_text_settles_by_length rfl rfl growing valid).2
      (by decide) (by decide) occurs

end FormulaEdit
