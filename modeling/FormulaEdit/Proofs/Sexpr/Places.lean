import FormulaEdit.Span
import Mathlib.Data.Int.ConditionallyCompleteOrder
import Mathlib.Data.Prod.Lex
import Mathlib.Order.ConditionallyCompleteLattice.Basic

/-!
# Lines and offsets of a text

The place of an index is counted from the text alone: how many line breaks lie
before it, and how far it is behind the last of them.  The position that the
scanner carries along moves from each place to the next one, and places grow
with their indices, so a place names one index only.
-/

namespace FormulaEdit.Position

/-- Positions in reading order. -/
def key (position : Position) : Int ×ₗ Int :=
  toLex (position.line, position.offset)

theorem key_lt_next (position : Position) (c : Char) (rest : List Char) :
    position.key < (position.next c rest).key := by
  rw [key, key, Prod.Lex.toLex_lt_toLex]
  unfold next
  split
  · exact .inl (Int.lt_succ position.line)
  · exact .inr ⟨rfl, Int.lt_succ position.offset⟩

end FormulaEdit.Position

namespace FormulaEdit.Sexpr

/-- The line breaks of a text that starts at an index, each with the index of
its first character and the index behind it.  A carriage return and the line
feed behind it make one break. -/
def lineBreaks : (index : Nat) → List Char → List (Nat × Nat)
  | _, [] => []
  | index, '\r' :: '\n' :: rest =>
      (index, index + 2) :: lineBreaks (index + 2) rest
  | index, c :: rest =>
      if c = '\n' ∨ c = '\r' then
        (index, index + 1) :: lineBreaks (index + 1) rest
      else lineBreaks (index + 1) rest

/-- The line breaks that lie before an index as a whole. -/
def breaksBefore (text : List Char) (index : Nat) : List (Nat × Nat) :=
  (lineBreaks 0 text).filter (·.2 ≤ index)

/-- Where a line starts that some breaks lie before. -/
def lineStart (breaks : List (Nat × Nat)) : Nat :=
  breaks.getLast?.elim 0 Prod.snd

/-- The line and the offset of an index. -/
def place (text : List Char) (index : Nat) : Position :=
  let breaks := breaksBefore text index
  { line := breaks.length, offset := (index : Int) - lineStart breaks }

theorem lt_of_mem_lineBreaks {index : Nat} {text : List Char}
    {lineBreak : Nat × Nat} (member : lineBreak ∈ lineBreaks index text) :
    index < lineBreak.2 := by
  fun_induction lineBreaks index text with
  | case1 => cases member
  | case2 index rest induction =>
      rcases List.mem_cons.mp member with same | later
      · subst same
        exact Nat.lt_add_of_pos_right Nat.two_pos
      · have bound := induction later
        omega
  | case3 index c rest _ _ induction =>
      rcases List.mem_cons.mp member with same | later
      · subst same
        exact Nat.lt_succ_self index
      · have bound := induction later
        omega
  | case4 index c rest _ _ induction =>
      have bound := induction member
      omega

theorem filter_lineBreaks_eq_nil {index bound : Nat} (text : List Char)
    (before : bound ≤ index) :
    (lineBreaks index text).filter (·.2 ≤ bound) = [] := by
  rw [List.filter_eq_nil_iff]
  intro lineBreak member
  have behind := lt_of_mem_lineBreaks member
  simp only [decide_eq_true_eq]
  omega

theorem filter_cons_of_before {index : Nat} {lineBreak : Nat × Nat}
    {breaks later : List (Nat × Nat)} (before : lineBreak.2 ≤ index)
    (added : breaks.filter (·.2 ≤ index + 1) =
      breaks.filter (·.2 ≤ index) ++ later) :
    (lineBreak :: breaks).filter (·.2 ≤ index + 1) =
      (lineBreak :: breaks).filter (·.2 ≤ index) ++ later := by
  have still : lineBreak.2 ≤ index + 1 := Nat.le_succ_of_le before
  simp [before, still, added]

/-- Whether a line ends behind a character that stands in front of `rest`. -/
def endsLine (c : Char) (rest : List Char) : Bool :=
  c = '\n' || (c = '\r' && rest.head? ≠ some '\n')

/-- The breaks that end right behind the first character of a text. -/
def EndingBehind (index : Nat) (breaks : List (Nat × Nat)) :
    List Char → Prop
  | [] => breaks = []
  | c :: rest =>
      if endsLine c rest then ∃ first, breaks = [(first, index + 1)]
      else breaks = []

/-- With the next character come the breaks that end right behind it. -/
theorem exists_endingBehind (index count : Nat) (text : List Char) :
    ∃ breaks, EndingBehind (index + count) breaks (text.drop count) ∧
      (lineBreaks index text).filter (·.2 ≤ index + count + 1) =
        (lineBreaks index text).filter (·.2 ≤ index + count) ++ breaks := by
  -- The character in question is one of the first break, or lies behind it.
  fun_induction lineBreaks index text generalizing count with
  | case1 =>
      refine ⟨[], ?_, rfl⟩
      rw [List.drop_nil]
      rfl
  | case2 index rest induction =>
      match count with
      | 0 =>
          refine ⟨[], by simp [EndingBehind, endsLine], ?_⟩
          simp [filter_lineBreaks_eq_nil rest (by omega : index ≤ index + 2),
            filter_lineBreaks_eq_nil rest (by omega : index + 1 ≤ index + 2)]
      | 1 =>
          refine ⟨[(index, index + 2)], ?_, ?_⟩
          · simp [EndingBehind, endsLine]
          · simp [filter_lineBreaks_eq_nil rest (Nat.le_refl (index + 2)),
              filter_lineBreaks_eq_nil rest (by omega : index + 1 ≤ index + 2)]
      | count + 2 =>
          obtain ⟨breaks, ending, added⟩ := induction count
          have shifted : index + (count + 2) = index + 2 + count := by omega
          refine ⟨breaks, ?_, ?_⟩
          · rw [shifted]
            exact ending
          · rw [shifted]
            exact filter_cons_of_before (by simp only; omega) added
  | case3 index c rest noPair breaks induction =>
      match count with
      | 0 =>
          have ends : endsLine c rest = true := by
            rcases breaks with rfl | rfl
            · simp [endsLine]
            · have alone : rest.head? ≠ some '\n' := by
                intro lineFeed
                obtain ⟨others, rfl⟩ := List.head?_eq_some_iff.mp lineFeed
                exact noPair others rfl rfl
              simp [endsLine, alone]
          refine ⟨[(index, index + 1)], by simp [EndingBehind, ends], ?_⟩
          simp [filter_lineBreaks_eq_nil rest (Nat.le_refl (index + 1)),
            filter_lineBreaks_eq_nil rest (by omega : index ≤ index + 1)]
      | count + 1 =>
          obtain ⟨breaks, ending, added⟩ := induction count
          have shifted : index + (count + 1) = index + 1 + count := by omega
          refine ⟨breaks, ?_, ?_⟩
          · rw [shifted]
            exact ending
          · rw [shifted]
            exact filter_cons_of_before (by simp only; omega) added
  | case4 index c rest _ plain induction =>
      match count with
      | 0 =>
          rw [not_or] at plain
          refine ⟨[], by simp [EndingBehind, endsLine, plain], ?_⟩
          simp [filter_lineBreaks_eq_nil rest (Nat.le_refl (index + 1)),
            filter_lineBreaks_eq_nil rest (by omega : index ≤ index + 1)]
      | count + 1 =>
          obtain ⟨breaks, ending, added⟩ := induction count
          have shifted : index + (count + 1) = index + 1 + count := by omega
          rw [shifted]
          exact ⟨breaks, ending, added⟩

theorem place_zero (text : List Char) : place text 0 = .start := by
  have none := filter_lineBreaks_eq_nil text (Nat.le_refl 0)
  simp only [place, breaksBefore, none]
  rfl

theorem place_succ {text rest : List Char} {index : Nat} {c : Char}
    (found : text.drop index = c :: rest) :
    place text (index + 1) = (place text index).next c rest := by
  obtain ⟨breaks, ending, added⟩ := exists_endingBehind 0 index text
  rw [found, Nat.zero_add] at ending
  rw [Nat.zero_add] at added
  simp only [EndingBehind] at ending
  split at ending
  next ends =>
      obtain ⟨first, rfl⟩ := ending
      have moved : (place text index).next c rest =
          ⟨(place text index).line + 1, 0⟩ := if_pos ends
      rw [moved]
      simp [place, breaksBefore, lineStart, added]
  next goesOn =>
      subst ending
      have moved : (place text index).next c rest =
          ⟨(place text index).line, (place text index).offset + 1⟩ :=
        if_neg goesOn
      rw [moved]
      simp only [place, breaksBefore, added, List.append_nil,
        Position.mk.injEq, true_and]
      omega

theorem place_succ_of_end {text : List Char} {index : Nat}
    (ended : text.drop index = []) :
    place text (index + 1) =
      ⟨(place text index).line, (place text index).offset + 1⟩ := by
  obtain ⟨breaks, ending, added⟩ := exists_endingBehind 0 index text
  rw [ended] at ending
  rw [Nat.zero_add] at added
  subst ending
  simp only [place, breaksBefore, added, List.append_nil, Position.mk.injEq,
    true_and]
  omega

theorem strictMono_place (text : List Char) :
    StrictMono fun index => (place text index).key := by
  apply strictMono_nat_of_lt_succ
  intro index
  cases found : text.drop index with
  | nil =>
      rw [place_succ_of_end found, Position.key, Position.key,
        Prod.Lex.toLex_lt_toLex]
      exact .inr ⟨rfl, Int.lt_succ _⟩
  | cons c rest =>
      rw [place_succ found]
      exact Position.key_lt_next _ c rest

theorem place_injective (text : List Char) :
    Function.Injective (place text) := by
  intro first second same
  exact (strictMono_place text).injective (congrArg Position.key same)

end FormulaEdit.Sexpr
