import FormulaEdit.Proofs.Batch.Splitting
import FormulaEdit.Proofs.Pattern.Matching
import FormulaEdit.Proofs.Result

/-!
# The pattern of blank lines

A separator of a batch is a line break with blank lines behind it.  Written as
a pattern it has alternatives, a look-ahead and nested repetitions, but each of
its parts matches in one way only, so nothing is ever given back and the
matches are just the separators that the scanner finds.
-/

namespace FormulaEdit

open Pattern (Advances After Captures Compiled Regex literal)

namespace Batch

/-! ## Line breaks -/

/-- A line break in front of a text. -/
inductive Breaks : (ending rest : List Char) → Prop where
  | both (rest : List Char) : Breaks ['\r', '\n'] rest
  | feed (rest : List Char) : Breaks ['\n'] rest
  | ret {rest : List Char} (alone : rest.head? ≠ some '\n') :
      Breaks ['\r'] rest

theorem exists_breaks (text : List Char) :
    (breakLength text = 0 ∧ ∀ c, text.head? = some c → isBreak c = false) ∨
      ∃ ending rest, text = ending ++ rest ∧ Breaks ending rest := by
  fun_cases breakLength text with
  | case1 rest => exact .inr ⟨_, rest, rfl, .both rest⟩
  | case2 rest notBoth =>
      refine .inr ⟨_, rest, rfl, .ret fun feed => ?_⟩
      obtain ⟨more, rfl⟩ := List.head?_eq_some_iff.mp feed
      exact notBoth more rfl
  | case3 rest => exact .inr ⟨_, rest, rfl, .feed rest⟩
  | case4 _ _ notReturn notFeed =>
      refine .inl ⟨rfl, fun c front => ?_⟩
      obtain ⟨rest, rfl⟩ := List.head?_eq_some_iff.mp front
      simp only [isBreak, Bool.or_eq_false_iff, beq_eq_false_iff_ne]
      exact ⟨fun same => notReturn rest (by rw [same]),
        fun same => notFeed rest (by rw [same])⟩

namespace Breaks

variable {ending rest : List Char}

theorem length_pos (breaks : Breaks ending rest) : 0 < ending.length := by
  cases breaks <;> simp

theorem breakLength_eq (breaks : Breaks ending rest) :
    breakLength (ending ++ rest) = ending.length := by
  cases breaks with
  | both => rfl
  | feed => rfl
  | ret alone =>
      cases rest with
      | nil => rfl
      | cons c rest =>
          have other : c ≠ '\n' := by simpa using alone
          simp [breakLength, other]

theorem blankLength_eq (breaks : Breaks ending rest) (pending done : Nat) :
    blankLength pending done (ending ++ rest) =
      blankLength 0 (done + pending + ending.length) rest := by
  cases breaks with
  | both => exact blankLength.eq_1 pending done rest
  | feed => exact (blankLength.eq_2 pending done '\n' rest (by simp)).trans rfl
  | ret alone =>
      have notBoth : ∀ more, '\r' = '\r' → rest = '\n' :: more → False := by
        rintro more _ rfl
        exact alone rfl
      exact (blankLength.eq_2 pending done '\r' rest notBoth).trans rfl

theorem separatorLength?_eq (breaks : Breaks ending rest) :
    separatorLength? (ending ++ rest) =
      if blankLength 0 0 rest = 0 then none
      else some (ending.length + blankLength 0 0 rest) := by
  simp only [separatorLength?, breaks.breakLength_eq,
    Nat.ne_of_gt breaks.length_pos, if_false, List.drop_left]
  split
  next zero => rw [if_pos zero]
  next some => rw [if_neg some]

end Breaks

/-! ## Blank lines -/

theorem blankLength_cons {c : Char} (noBreak : isBreak c = false)
    (pending done : Nat) (rest : List Char) :
    blankLength pending done (c :: rest) =
      if isGap c then blankLength (pending + 1) done rest else done := by
  have other : c ≠ '\r' ∧ c ≠ '\n' := by simpa [isBreak] using noBreak
  rw [blankLength.eq_2 _ _ _ _ (by simp [other])]
  simp [other, isGap]

theorem blankLength_gaps {gaps : List Char} (all : gaps.all isGap = true)
    (pending done : Nat) (rest : List Char) :
    blankLength pending done (gaps ++ rest) =
      blankLength (pending + gaps.length) done rest := by
  induction gaps generalizing pending with
  | nil => rfl
  | cons c gaps induction =>
      obtain ⟨gap, all⟩ := Bool.and_eq_true_iff.mp all
      rw [List.cons_append, blankLength_cons (isBreak_of_isGap gap),
        if_pos gap, induction all, List.length_cons, Nat.add_assoc,
        Nat.add_comm 1]

theorem blankLength_add (extra pending done : Nat) (text : List Char) :
    blankLength pending (extra + done) text =
      extra + blankLength pending done text := by
  fun_induction blankLength pending done text with
  | case1 pending done rest induction =>
      rw [blankLength.eq_1, Nat.add_assoc, Nat.add_assoc, ← Nat.add_assoc done,
        induction]
  | case2 pending done c rest notBoth breaks induction =>
      rw [blankLength.eq_2 _ _ _ _ notBoth, if_pos breaks, Nat.add_assoc,
        Nat.add_assoc, ← Nat.add_assoc done, induction]
  | case3 pending done c rest notBoth noBreak gap induction =>
      rw [blankLength.eq_2 _ _ _ _ notBoth, if_neg noBreak, if_pos gap,
        induction]
  | case4 pending done c rest notBoth noBreak noGap =>
      rw [blankLength.eq_2 _ _ _ _ notBoth, if_neg noBreak, if_neg noGap]
  | case5 => rfl

/-- The number of spaces and tabs at the front of a text. -/
def gapLength (text : List Char) : Nat := (text.takeWhile isGap).length

/-- The length of the blank line at the front of a text, with its break; zero
if there is none. -/
def blankLine (text : List Char) : Nat :=
  if breakLength (text.drop (gapLength text)) = 0 then 0
  else gapLength text + breakLength (text.drop (gapLength text))

theorem drop_gapLength (text : List Char) :
    text.drop (gapLength text) = text.dropWhile isGap :=
  calc
    text.drop (gapLength text)
      = (text.takeWhile isGap ++ text.dropWhile isGap).drop
          (text.takeWhile isGap).length := by
        rw [List.takeWhile_append_dropWhile, gapLength]
    _ = text.dropWhile isGap := List.drop_left

theorem blankLength_rounds (text : List Char) :
    blankLength 0 0 text =
      if blankLine text = 0 then 0
      else blankLine text + blankLength 0 0 (text.drop (blankLine text)) := by
  have counted : blankLength 0 0 text =
      blankLength (gapLength text) 0 (text.dropWhile isGap) :=
    calc
      blankLength 0 0 text
        = blankLength 0 0 (text.takeWhile isGap ++ text.dropWhile isGap) := by
          rw [List.takeWhile_append_dropWhile]
      _ = blankLength (gapLength text) 0 (text.dropWhile isGap) := by
          rw [blankLength_gaps List.all_takeWhile, Nat.zero_add, gapLength]
  rcases exists_breaks (text.dropWhile isGap) with
    ⟨none, noBreak⟩ | ⟨ending, rest, tail, breaks⟩
  · have zero : blankLine text = 0 := by
      rw [blankLine, drop_gapLength, if_pos none]
    rw [if_pos zero, counted]
    cases tail : text.dropWhile isGap with
    | nil => rfl
    | cons c rest =>
        have noGap : isGap c = false := by
          have head := List.head?_dropWhile_not isGap text
          rw [tail] at head
          exact head
        rw [blankLength_cons (noBreak c (by rw [tail]; rfl)), noGap]
        rfl
  · have length : blankLine text = gapLength text + ending.length := by
      rw [blankLine, drop_gapLength, tail, breaks.breakLength_eq,
        if_neg (Nat.ne_of_gt breaks.length_pos)]
    have positive := breaks.length_pos
    rw [if_neg (by omega), counted, tail, breaks.blankLength_eq, length,
      ← List.drop_drop, drop_gapLength, tail, List.drop_left, Nat.zero_add]
    exact blankLength_add (gapLength text + ending.length) 0 0 rest

/-! ## The pattern -/

/-- A line break, written as a pattern. -/
def lineBreak : Regex :=
  .grouped (.alt (.seq (literal {} '\r'.toNat) (literal {} '\n'.toNat))
    (.alt
      (.seq (literal {} '\r'.toNat)
        (.lookAhead true (literal {} '\n'.toNat)))
      (literal {} '\n'.toNat)))

/-- Spaces and tabs, written as a pattern. -/
def gaps : Regex :=
  .repeated 0 none .greedy (.one { items := [.code 32, .code 9] })

/-- A line break and blank lines behind it, written as a pattern. -/
def separators : Compiled :=
  { regex := .seq lineBreak (.seq gaps (.seq lineBreak
      (.repeated 0 none .greedy (.grouped (.seq gaps lineBreak)))))
    groups := 0
    names := [] }

theorem breakLength_le (text : List Char) : breakLength text ≤ text.length := by
  rcases exists_breaks text with ⟨none, _⟩ | ⟨ending, rest, rfl, breaks⟩
  · rw [none]
    exact Nat.zero_le _
  · rw [breaks.breakLength_eq, List.length_append]
    exact Nat.le_add_right _ _

theorem lineBreak_advances (text : Array Char) :
    Advances text (lineBreak.run text) breakLength := by
  refine ⟨breakLength_le, fun after position captures => ?_⟩
  rw [lineBreak]
  simp only [Regex.run, Pattern.run_literal]
  rcases exists_breaks (text.toList.drop position) with
    ⟨none, noBreak⟩ | ⟨ending, rest, stands, breaks⟩
  · have notReturn : (text.toList.drop position).head? ≠ some '\r' := by
      intro front
      cases noBreak _ front
    have notFeed : (text.toList.drop position).head? ≠ some '\n' := by
      intro front
      cases noBreak _ front
    simp only [none, notReturn, notFeed, if_false, if_true]
  · rw [stands, breaks.breakLength_eq,
      if_neg (Nat.ne_of_gt breaks.length_pos)]
    have differ : '\r' ≠ '\n' := by decide
    cases breaks with
    | both =>
        have behind : text.toList.drop (position + 1) = '\n' :: rest := by
          rw [← List.drop_drop, stands]
          rfl
        simp only [behind, List.cons_append, List.head?_cons, if_true,
          Pattern.Found.here, Option.some.injEq, differ, if_false]
        cases after (position + 1 + 1) captures with
        | none => rfl
        | some found => rfl
    | feed =>
        simp only [List.cons_append, List.head?_cons, Option.some.injEq,
          differ.symm, if_true, if_false]
        rfl
    | ret alone =>
        have behind : text.toList.drop (position + 1) = rest := by
          rw [← List.drop_drop, stands]
          rfl
        simp only [behind, alone, List.cons_append, List.head?_cons, if_true,
          if_false, Option.some.injEq, differ]
        cases after (position + 1) captures with
        | none => rfl
        | some found => rfl

/-- The length of a space or tab at the front of a text. -/
def gapAt (text : List Char) : Nat := if text.head?.any isGap then 1 else 0

theorem gap_advances (text : Array Char) :
    Advances text
      ((Regex.one { items := [.code 32, .code 9] }).run text) gapAt := by
  have has : ∀ c : Char, Pattern.CharSet.has
      { items := [.code 32, .code 9] } c = isGap c := by
    intro c
    have space : (32 == c.toNat) = (c == ' ') :=
      Pattern.toNat_beq_toNat ' ' c
    have tab : (9 == c.toNat) = (c == '\t') :=
      Pattern.toNat_beq_toNat '\t' c
    simp [Pattern.CharSet.has, Pattern.CharSet.itemHas, isGap, space, tab]
  constructor
  · intro rest
    cases rest with
    | nil => exact Nat.le_refl 0
    | cons c rest =>
        rw [gapAt]
        split
        next => simp
        next => exact Nat.zero_le _
  · intro after position captures
    rw [Pattern.run_one, gapAt, funext has]
    split
    next => rfl
    next => rfl

theorem gapLength_rounds (text : List Char) :
    gapLength text =
      if gapAt text = 0 then 0
      else gapAt text + gapLength (text.drop (gapAt text)) := by
  cases text with
  | nil => rfl
  | cons c text =>
      rw [gapLength, List.takeWhile_cons]
      cases gap : isGap c with
      | false => simp [gapAt, gap]
      | true => simp [gapAt, gap, gapLength, Nat.add_comm]

theorem blankLine_le (text : List Char) : blankLine text ≤ text.length := by
  rw [blankLine]
  split
  next => exact Nat.zero_le _
  next =>
    have rest := breakLength_le (text.drop (gapLength text))
    have gaps : gapLength text ≤ text.length := by
      have front : text.takeWhile isGap <+: text := List.takeWhile_prefix isGap
      exact front.length_le
    rw [List.length_drop] at rest
    omega

theorem breakLength_of_gapAt {text : List Char} (gap : gapAt text ≠ 0) :
    breakLength text = 0 := by
  rcases exists_breaks text with ⟨none, _⟩ | ⟨ending, rest, rfl, breaks⟩
  · exact none
  · cases breaks with
    | both => exact absurd rfl gap
    | feed => exact absurd rfl gap
    | ret => exact absurd rfl gap

/-- Spaces and tabs in front of a line break are never given back. -/
theorem blankLine_advances (text : Array Char) :
    Advances text ((Regex.grouped (.seq gaps lineBreak)).run text)
      blankLine := by
  refine ⟨blankLine_le, fun after position captures => ?_⟩
  have breaks := (lineBreak_advances text).run after
  have patient : ∀ place, lineBreak.run text after place captures = none ∨
      (lineBreak.run text after (place + gapLength (text.toList.drop place))
        captures).isSome = true := by
    intro place
    by_cases gap : gapAt (text.toList.drop place) = 0
    · rw [gapLength_rounds, if_pos gap, Nat.add_zero]
      cases lineBreak.run text after place captures with
      | none => exact .inl rfl
      | some found => exact .inr rfl
    · left
      rw [breaks, if_pos (breakLength_of_gapAt gap)]
  rw [Regex.run, Regex.run, gaps, Pattern.run_repeated (gap_advances text)
    gapLength_rounds patient, breaks, blankLine, ← List.drop_drop]
  split
  next => rfl
  next some =>
    rw [if_neg (by omega), Nat.add_assoc]

/-- The pattern matches what the scanner takes for a separator. -/
theorem matchAt_separators (text : Array Char) (start : Nat) :
    separators.matchAt text false start =
      (separatorLength? (text.toList.drop start)).map fun length =>
        ⟨start + length, [some (start, start + length)]⟩ := by
  let accept : After := fun stop captures =>
    some ⟨stop, captures.set 0 (some (start, stop))⟩
  have more : ∀ position captures,
      (Regex.repeated 0 none .greedy (.grouped (.seq gaps lineBreak))).run text
        accept position captures =
      accept (position + blankLength 0 0 (text.toList.drop position))
        captures := by
    intro position captures
    exact Pattern.run_repeated (blankLine_advances text) blankLength_rounds
      (fun _ => .inr rfl) position
  change lineBreak.run text ((Regex.grouped (.seq gaps lineBreak)).run text
    ((Regex.repeated 0 none .greedy (.grouped (.seq gaps lineBreak))).run text
      accept)) start [none] = _
  rw [(lineBreak_advances text).run, (blankLine_advances text).run, more]
  rcases exists_breaks (text.toList.drop start) with
    ⟨none, _⟩ | ⟨ending, rest, stands, breaks⟩
  · have missing : separatorLength? (text.toList.drop start) = Option.none := by
      rw [separatorLength?, none]
      rfl
    rw [if_pos none, missing]
    rfl
  · have total := blankLength_rounds rest
    have behind : text.toList.drop (start + ending.length) = rest :=
      Pattern.drop_add_of_drop stands rfl
    rw [stands, breaks.breakLength_eq, behind, breaks.separatorLength?_eq,
      if_neg (Nat.ne_of_gt breaks.length_pos)]
    by_cases stops : blankLine rest = 0
    · rw [if_pos stops] at total ⊢
      rw [if_pos total]
      rfl
    · rw [if_neg stops] at total ⊢
      have place : start + ending.length + blankLine rest +
          blankLength 0 0 (rest.drop (blankLine rest)) =
          start + (ending.length + blankLength 0 0 rest) := by
        omega
      rw [if_neg (by omega), ← List.drop_drop, behind, place]
      rfl

/-! ## Cutting at matches -/

theorem separatorLength?_pos {text : List Char} {length : Nat}
    (found : separatorLength? text = some length) : 0 < length := by
  rcases exists_breaks text with ⟨none, _⟩ | ⟨ending, rest, rfl, breaks⟩
  · rw [separatorLength?, none] at found
    cases found
  · rw [breaks.separatorLength?_eq] at found
    split at found
    next => cases found
    next =>
      obtain rfl := Option.some.inj found
      exact Nat.lt_of_lt_of_le breaks.length_pos (Nat.le_add_right _ _)

theorem cut_of_none {text : List Char}
    (none : ∀ skipped, separatorLength? (text.drop skipped) = none)
    (chunk : List Char) : cut 0 chunk text = [chunk.reverse ++ text] := by
  induction text generalizing chunk with
  | nil => rw [cut, List.append_nil]
  | cons c text induction =>
      have here : separatorLength? (c :: text) = Option.none := none 0
      rw [cut, here]
      simp only
      rw [induction fun skipped => none (skipped + 1), List.reverse_cons,
        List.append_assoc, List.singleton_append]

theorem cut_of_first {text : List Char} {skipped length : Nat}
    (earlier : ∀ place < skipped, separatorLength? (text.drop place) = none)
    (found : separatorLength? (text.drop skipped) = some length)
    (chunk : List Char) :
    cut 0 chunk text =
      (chunk.reverse ++ text.take skipped) ::
        cut 0 [] (text.drop (skipped + length)) := by
  induction skipped generalizing text chunk with
  | zero =>
      rw [List.drop_zero] at found
      have positive := separatorLength?_pos found
      cases text with
      | nil => cases found
      | cons c text =>
          obtain ⟨length, rfl⟩ := Nat.exists_eq_add_one_of_ne_zero
            (Nat.ne_of_gt positive)
          rw [cut, found, List.take_zero, List.append_nil, Nat.zero_add,
            List.drop_succ_cons]
          simp only [Nat.add_sub_cancel]
          rw [cut_skip]
  | succ skipped induction =>
      cases text with
      | nil =>
          rw [List.drop_nil] at found
          cases found
      | cons c text =>
          have here : separatorLength? (c :: text) = none :=
            earlier 0 (Nat.succ_pos _)
          rw [cut, here]
          simp only
          rw [induction (fun place below => earlier (place + 1) (by omega))
            found, List.reverse_cons, List.append_assoc, Nat.add_right_comm,
            List.drop_succ_cons, List.take_succ_cons]
          rfl

end Batch

/-- Cut a text at the matches of a pattern, from a place on. -/
def Pattern.Compiled.piecesFrom (pattern : Compiled) (text : Array Char) :
    (fuel : Nat) → (advance : Bool) → (start : Nat) → List (List Char)
  | 0, _, start => [slice text start text.size]
  | fuel + 1, advance, start =>
      match pattern.search text (text.size + 1 - start) advance start with
      | none => [slice text start text.size]
      | some (first, found) =>
          slice text start first ::
            pattern.piecesFrom text fuel (found.stop == first) found.stop

/-- Cut a text at the matches of a pattern. -/
def Pattern.Compiled.pieces (pattern : Compiled) (text : List Char) :
    List (List Char) :=
  pattern.piecesFrom text.toArray (2 * text.length + 3) false 0

namespace Batch

theorem no_separator {text : Array Char} {place : Nat}
    (none : separators.matchAt text false place = none) :
    separatorLength? (text.toList.drop place) = Option.none := by
  rw [matchAt_separators] at none
  exact Option.map_eq_none_iff.mp none

theorem piecesFrom_separators (text : Array Char) (fuel start : Nat)
    (enough : text.size < start + fuel) :
    separators.piecesFrom text fuel false start =
      cut 0 [] (text.toList.drop start) := by
  induction fuel generalizing start with
  | zero =>
      rw [Compiled.piecesFrom, Pattern.slice_size,
        List.drop_eq_nil_of_le (by simp; omega)]
      rfl
  | succ fuel induction =>
      rw [Compiled.piecesFrom]
      rcases separators.search_cases text (text.size + 1 - start) start
        with ⟨missed, none⟩ | ⟨first, found, hit, later, within, matched, none⟩
      · rw [missed, Pattern.slice_size]
        refine (cut_of_none (fun skipped => ?_) []).symm
        rw [List.drop_drop]
        by_cases within : start + skipped ≤ text.size
        · exact no_separator (none _ (by omega) (by omega) within)
        · rw [List.drop_eq_nil_of_le (by simp; omega)]
          rfl
      · rw [hit]
        rw [matchAt_separators] at matched
        obtain ⟨length, separator, rfl⟩ := Option.map_eq_some_iff.mp matched
        have positive := separatorLength?_pos separator
        have moves : (first + length == first) = false := by
          rw [beq_eq_false_iff_ne]
          omega
        have place : start + (first - start) = first := by omega
        have cuts := @cut_of_first (text.toList.drop start) (first - start)
          length
          (fun skipped below => by
            rw [List.drop_drop]
            exact no_separator (none _ (by omega) (by omega)))
          (by rw [List.drop_drop, place]; exact separator) []
        rw [cuts, List.drop_drop, ← Nat.add_assoc, place]
        simp only [moves]
        rw [induction _ (by omega), Pattern.slice_eq]
        rfl

/-- The matches of the pattern are the separators. -/
theorem pieces_separators (text : List Char) :
    separators.pieces text = cut 0 [] text :=
  piecesFrom_separators text.toArray _ 0 (by simp; omega)

/-- The pattern of a line break, as it is written. -/
def lineBreakText : String := "(?:\\r\\n|\\r(?!\\n)|\\n)"

/-- The pattern of separators, as it is written. -/
def separatorText : String :=
  lineBreakText ++ "[ \\t]*" ++ lineBreakText ++ "(?:[ \\t]*" ++
    lineBreakText ++ ")*"

theorem compile_separatorText :
    Pattern.compile separatorText.toList = .ok separators := by
  have read : (Pattern.compile separatorText.toList).toOption.map
      (fun pattern => (pattern.regex, pattern.groups, pattern.names)) =
      some (separators.regex, 0, []) := by
    decide +kernel
  obtain ⟨⟨regex, groups, names⟩, found, parts⟩ :=
    Option.map_eq_some_iff.mp read
  cases parts
  exact Result.toOption_eq_some_iff.mp found

end Batch

end FormulaEdit
