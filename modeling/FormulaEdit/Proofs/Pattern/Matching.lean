import FormulaEdit.Pattern.Reader
import FormulaEdit.Pattern.Substitute

/-!
# Matching

What the parts of a pattern do at a place is said in terms of the text that is
left from there.  A search finds the first place with a match, and a greedy
repetition that cannot give a round back takes as many rounds as there are.
-/

namespace FormulaEdit.Pattern

variable {text : Array Char} {after : After}

/-! ## Places in a text -/

theorem slice_eq (text : Array Char) (start stop : Nat) :
    slice text start stop = (text.toList.drop start).take (stop - start) := by
  rw [slice, Array.toList_extract, List.extract_eq_take_drop]

theorem slice_size (text : Array Char) (start : Nat) :
    slice text start text.size = text.toList.drop start := by
  rw [slice_eq, List.take_of_length_le (by simp)]

theorem drop_add_of_drop {position count : Nat} {first rest : List Char}
    (stands : text.toList.drop position = first ++ rest)
    (length : first.length = count) :
    text.toList.drop (position + count) = rest := by
  rw [← List.drop_drop, stands, ← length, List.drop_left]

/-! ## Search -/

namespace Compiled

theorem search_cases (pattern : Compiled) (text : Array Char)
    (fuel start : Nat) :
    (pattern.search text fuel false start = none ∧
      ∀ place, start ≤ place → place < start + fuel → place ≤ text.size →
        pattern.matchAt text false place = none) ∨
    ∃ first found, pattern.search text fuel false start = some (first, found) ∧
      start ≤ first ∧ first ≤ text.size ∧
      pattern.matchAt text false first = some found ∧
      ∀ place, start ≤ place → place < first →
        pattern.matchAt text false place = none := by
  induction fuel generalizing start with
  | zero => exact .inl ⟨rfl, fun place from_ below _ => by omega⟩
  | succ fuel induction =>
      rw [search]
      by_cases beyond : text.size < start
      · rw [if_pos beyond]
        exact .inl ⟨rfl, fun place from_ _ within => by omega⟩
      rw [if_neg beyond]
      cases here : pattern.matchAt text false start with
      | some found =>
          exact .inr ⟨start, found, rfl, Nat.le_refl _, by omega, here,
            fun place from_ below => by omega⟩
      | none =>
          rcases induction (start + 1) with ⟨missed, none⟩ |
            ⟨first, found, hit, after, within, matched, none⟩
          · refine .inl ⟨missed, fun place from_ below within => ?_⟩
            rcases Nat.eq_or_lt_of_le from_ with rfl | later
            · exact here
            · exact none place later (by omega) within
          · refine .inr ⟨first, found, hit, by omega, within, matched,
              fun place from_ below => ?_⟩
            rcases Nat.eq_or_lt_of_le from_ with rfl | later
            · exact here
            · exact none place later below

end Compiled

/-! ## Single characters -/

theorem run_one (text : Array Char) (set : CharSet) (after : After)
    (position : Nat) (captures : Captures) :
    (Regex.one set).run text after position captures =
      if (text.toList.drop position).head?.any set.has then
        after (position + 1) captures
      else none := by
  rw [Regex.run, List.head?_drop, Array.getElem?_toList]
  cases char : text[position]? with
  | none => simp [char]
  | some d => simp [char]

theorem toNat_beq_toNat (c d : Char) : (c.toNat == d.toNat) = (d == c) := by
  rw [Bool.eq_iff_iff, beq_iff_eq, beq_iff_eq, Char.toNat_inj]
  exact eq_comm

theorem run_literal (text : Array Char) (c : Char) (after : After)
    (position : Nat) (captures : Captures) :
    (literal {} c.toNat).run text after position captures =
      if (text.toList.drop position).head? = some c then
        after (position + 1) captures
      else none := by
  have has : ∀ d : Char, CharSet.has { items := [.code c.toNat] } d =
      (d == c) := by
    intro d
    simpa [CharSet.has, CharSet.itemHas] using toNat_beq_toNat c d
  rw [literal, run_one]
  cases (text.toList.drop position).head? with
  | none => simp
  | some d => simp [has]

theorem run_sequence (text : Array Char) (parts : List Regex) (after : After) :
    (sequence parts).run text after =
      parts.foldl (fun after part => part.run text after) after := by
  have step : ∀ (parts : List Regex) (last : Regex),
      (parts.foldl (fun after part =>
        if after = .empty then part else .seq part after) last).run text after =
      parts.foldl (fun after part => part.run text after)
        (last.run text after) := by
    intro parts
    induction parts with
    | nil => exact fun _ => rfl
    | cons part parts induction =>
        intro last
        rw [List.foldl_cons, List.foldl_cons, induction]
        by_cases none : last = .empty
        · rw [if_pos none, none]
          rfl
        · rw [if_neg none]
          rfl
  exact step parts .empty

/-! ## Greedy repetitions -/

/-- A part that matches in one way only: `length` says how long the match at
the front of a text is, and is zero if there is none. -/
structure Advances (text : Array Char) (body : After → After)
    (length : List Char → Nat) : Prop where
  length_le : ∀ rest, length rest ≤ rest.length
  run : ∀ after position captures, body after position captures =
    if length (text.toList.drop position) = 0 then none
    else after (position + length (text.toList.drop position)) captures

/-- A greedy repetition of such a part takes all rounds, if what comes after
it fails without them or succeeds behind them. -/
theorem greedily_eq {body : After → After} {length total : List Char → Nat}
    (advances : Advances text body length)
    (rounds : ∀ rest, total rest =
      if length rest = 0 then 0
      else length rest + total (rest.drop (length rest)))
    {captures : Captures}
    (patient : ∀ position, after position captures = none ∨
      (after (position + total (text.toList.drop position))
        captures).isSome = true)
    (fuel count : Nat) (last : Option Nat) (position : Nat)
    (enough : text.size < position + fuel)
    (behind : ∀ place, last = some place → place < position) :
    greedily body 0 none after fuel count last position captures =
      after (position + total (text.toList.drop position)) captures := by
  induction fuel generalizing count last position with
  | zero =>
      have nothing : text.toList.drop position = [] :=
        List.drop_eq_nil_of_le (by simp; omega)
      have zero : length [] = 0 := Nat.le_zero.mp (advances.length_le [])
      rw [nothing, rounds, if_pos zero]
      rfl
  | succ fuel induction =>
      have may : mayRepeat none count last position = true := by
        have moved : last ≠ some position :=
          fun same => Nat.lt_irrefl _ (behind position same)
        simp [mayRepeat, moved]
      rw [greedily]
      simp only [Nat.not_lt_zero, if_false, may, if_true]
      rw [advances.run]
      by_cases stops : length (text.toList.drop position) = 0
      · rw [if_pos stops, rounds, if_pos stops]
        rfl
      · have later := induction (count + 1) (some position)
          (position + length (text.toList.drop position)) (by omega)
          (by rintro place ⟨⟩; omega)
        have whole : position + length (text.toList.drop position) +
            total (text.toList.drop
              (position + length (text.toList.drop position))) =
            position + total (text.toList.drop position) := by
          rw [rounds (text.toList.drop position), if_neg stops,
            List.drop_drop, Nat.add_assoc]
        rw [if_neg stops, later, whole]
        rcases patient position with fails | succeeds
        · rw [fails]
          cases after (position + total (text.toList.drop position)) captures
            with
          | none => rfl
          | some found => rfl
        · obtain ⟨found, reached⟩ := Option.isSome_iff_exists.mp succeeds
          rw [reached]

theorem run_repeated {part : Regex} {length total : List Char → Nat}
    (advances : Advances text (part.run text) length)
    (rounds : ∀ rest, total rest =
      if length rest = 0 then 0
      else length rest + total (rest.drop (length rest)))
    {captures : Captures}
    (patient : ∀ position, after position captures = none ∨
      (after (position + total (text.toList.drop position))
        captures).isSome = true) (position : Nat) :
    (Regex.repeated 0 none .greedy part).run text after position captures =
      after (position + total (text.toList.drop position)) captures := by
  rw [Regex.run]
  refine greedily_eq advances rounds patient _ 0 none position (by omega) ?_
  rintro place ⟨⟩

end FormulaEdit.Pattern
