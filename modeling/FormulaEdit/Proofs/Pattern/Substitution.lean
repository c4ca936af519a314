import FormulaEdit.Proofs.Pattern.Matching
import FormulaEdit.Proofs.Pattern.Quoting
import FormulaEdit.Proofs.Text.Occurrence

/-!
# Substituting for a text

The pattern of one text matches wherever the text stands, and nowhere else.
Substituting a fixed text for its matches follows the rules of replaced
occurrences, so the matcher and the scanner of occurrences agree.
-/

namespace FormulaEdit.Pattern

theorem run_exactly (source : List Char) (text : Array Char) (after : After)
    (position : Nat) (captures : Captures) :
    (exactly source).regex.run text after position captures =
      if source <+: text.toList.drop position then
        after (position + source.length) captures
      else none := by
  rw [exactly, run_sequence, List.foldl_reverse, List.foldr_map]
  induction source generalizing position with
  | nil => simp
  | cons c source induction =>
      rw [List.foldr_cons, run_literal, induction]
      cases rest : text.toList.drop position with
      | nil => simp
      | cons d others =>
          have behind : text.toList.drop (position + 1) = others := by
            rw [← List.tail_drop, rest, List.tail_cons]
          simp only [behind, List.head?_cons, List.cons_prefix_cons,
            Option.some.injEq, List.length_cons]
          by_cases same : d = c
          · subst same
            simp only [if_true, true_and]
            rw [Nat.add_assoc, Nat.add_comm 1]
          · rw [if_neg same, if_neg fun both => same both.1.symm]

theorem matchAt_exactly (source : List Char) (text : Array Char) (start : Nat) :
    (exactly source).matchAt text false start =
      if source <+: text.toList.drop start then
        some ⟨start + source.length, [some (start, start + source.length)]⟩
      else none := by
  rw [Compiled.matchAt, run_exactly]
  rfl

theorem expand_chars (target : List Char) (text : Array Char)
    (captures : Captures) :
    expand (target.map TemplatePart.char) text captures = target := by
  induction target with
  | nil => rfl
  | cons c target induction =>
      exact congrArg (c :: ·) induction

theorem not_prefix_of_matchAt {source : List Char} {text : Array Char}
    {place : Nat} (none : (exactly source).matchAt text false place = none) :
    ¬source <+: text.toList.drop place := by
  intro front
  rw [matchAt_exactly, if_pos front] at none
  cases none

theorem exists_drop_of_inside {source part text : List Char}
    (inside : source <:+: part) (front : part <+: text) :
    ∃ skipped, skipped + source.length ≤ part.length ∧
      source <+: text.drop skipped := by
  obtain ⟨before, after, rfl⟩ := inside
  obtain ⟨more, rfl⟩ := front
  refine ⟨before.length, by simp, ?_⟩
  rw [List.append_assoc, List.append_assoc, List.drop_left]
  exact List.prefix_append source _

/-- The replacements from a place on follow the rules. -/
theorem replaces_replaceFrom {source : List Char} (nonempty : source ≠ [])
    (target : List Char) (text : Array Char) (fuel : Nat) (limit : Option Nat)
    (start : Nat) (enough : text.size < start + fuel) :
    Text.Replaces source target limit (text.toList.drop start)
      ((exactly source).replaceFrom (target.map TemplatePart.char) text fuel
        limit false start) := by
  have positive : 0 < source.length := List.length_pos_iff.mpr nonempty
  induction fuel generalizing limit start with
  | zero =>
      rw [Compiled.replaceFrom, slice_size,
        List.drop_eq_nil_of_le (by simp; omega)]
      refine .done (.inr ?_)
      rwa [List.infix_nil]
  | succ fuel induction =>
      rw [Compiled.replaceFrom]
      by_cases stops : limit = some 0
      · rw [if_pos stops, slice_size]
        exact .done (.inl stops)
      rw [if_neg stops]
      rcases (exactly source).search_cases text (text.size + 1 - start) start
        with ⟨missed, none⟩ | ⟨first, found, hit, later, within, matched, none⟩
      · rw [missed, slice_size]
        refine .done (.inr fun inside => ?_)
        obtain ⟨skipped, fits, front⟩ :=
          exists_drop_of_inside inside List.prefix_rfl
        rw [List.length_drop, @Array.length_toList _ text] at fits
        rw [List.drop_drop] at front
        exact not_prefix_of_matchAt
          (none (start + skipped) (by omega) (by omega) (by omega)) front
      · rw [hit]
        rw [matchAt_exactly] at matched
        split at matched
        next front =>
          obtain rfl := Option.some.inj matched
          obtain ⟨after, same⟩ := front
          have moves : (first + source.length == first) = false := by
            simpa using nonempty
          have behind : after = text.toList.drop (first + source.length) := by
            rw [← List.drop_drop, ← same, List.drop_left]
          have whole : text.toList.drop start =
              slice text start first ++ source ++ after := by
            rw [slice_eq, List.append_assoc, same,
              ← Nat.add_sub_cancel' later, ← List.drop_drop,
              Nat.add_sub_cancel_left, List.take_append_drop]
          have rest := induction (limit.map (· - 1)) (first + source.length)
            (by omega)
          rw [← behind] at rest
          simp only [moves, expand_chars]
          -- An earlier occurrence would have been found by the search.
          have earliest :
              ¬source <:+: (slice text start first ++ source).dropLast := by
            intro inside
            have length : (slice text start first).length ≤ first - start := by
              rw [slice_eq]
              exact List.length_take_le _ _
            have part : (slice text start first ++ source).dropLast <+:
                text.toList.drop start := by
              rw [whole]
              exact Text.dropLast_front _ _
            obtain ⟨skipped, fits, front⟩ := exists_drop_of_inside inside part
            rw [List.length_dropLast, List.length_append] at fits
            rw [List.drop_drop] at front
            exact not_prefix_of_matchAt
              (none (start + skipped) (by omega) (by omega)) front
          rw [whole]
          exact .next stops earliest rest
        next => cases matched

theorem replace_exactly {source : List Char} (nonempty : source ≠ [])
    (target : List Char) (count : Nat) (text : List Char) :
    (exactly source).replace (target.map TemplatePart.char) count text =
      Text.replaceOccurrences source target count text :=
  (Text.replaces_iff nonempty).mp
    (replaces_replaceFrom nonempty target text.toArray _ _ 0 (by omega))

end FormulaEdit.Pattern
