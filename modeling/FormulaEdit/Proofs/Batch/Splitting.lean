import FormulaEdit.Batch
import FormulaEdit.Proofs.Sexpr.Grammar

/-!
# Splitting a batch

A text is cut where two of its line breaks have nothing but spaces and tabs
between them.  No piece holds such a place, and texts joined with blank lines
are found again just when none of them holds one.
-/

namespace FormulaEdit

theorem Sexpr.Blank.reverse {text : List Char} (blank : Blank text) :
    Blank text.reverse := by
  intro c member
  exact blank c (List.mem_reverse.mp member)

namespace Batch

open Sexpr (Blank)

/-- Whether a character ends a line. -/
def isBreak (c : Char) : Bool := c == '\r' || c == '\n'

/-- Whether a character may stand in a blank line. -/
def isGap (c : Char) : Bool := c == ' ' || c == '\t'

theorem isBreak_of_isGap {c : Char} (gap : isGap c = true) :
    isBreak c = false := by
  rcases Bool.or_eq_true _ _ ▸ gap with same | same <;>
    exact eq_of_beq same ▸ rfl

/-- Whether a line break follows behind spaces and tabs. -/
def reachesBreak : List Char → Bool
  | [] => false
  | c :: rest => isBreak c || (isGap c && reachesBreak rest)

/-- Whether a blank line follows the line break at the front of a text.  A
carriage return and the line feed behind it are one line break. -/
def opensBlankLine : List Char → Bool
  | [] => false
  | c :: rest =>
      isBreak c && !(c == '\r' && rest.head? == some '\n') &&
        reachesBreak rest

/-- Whether a text has a blank line between two of its line breaks. -/
def hasBlankLine : List Char → Bool
  | [] => false
  | c :: rest => opensBlankLine (c :: rest) || hasBlankLine rest

/-! ## Blank lines in parts of a text -/

theorem hasBlankLine_cons (c : Char) (rest : List Char) :
    hasBlankLine (c :: rest) =
      (opensBlankLine (c :: rest) || hasBlankLine rest) :=
  rfl

theorem isBlank_of_isBreak {c : Char} (breaks : isBreak c = true) :
    Text.isBlank c = true := by
  rcases Bool.or_eq_true _ _ ▸ breaks with same | same <;>
    exact eq_of_beq same ▸ by decide

theorem isBlank_of_isGap {c : Char} (gap : isGap c = true) :
    Text.isBlank c = true := by
  rcases Bool.or_eq_true _ _ ▸ gap with same | same <;>
    exact eq_of_beq same ▸ by decide

theorem reachesBreak_append {text : List Char}
    (reaches : reachesBreak text = true) (after : List Char) :
    reachesBreak (text ++ after) = true := by
  induction text with
  | nil => cases reaches
  | cons c rest induction =>
      simp only [reachesBreak, List.cons_append, Bool.or_eq_true,
        Bool.and_eq_true] at reaches ⊢
      exact reaches.imp id fun later => ⟨later.1, induction later.2⟩

theorem opensBlankLine_append {text : List Char}
    (opens : opensBlankLine text = true) (after : List Char) :
    opensBlankLine (text ++ after) = true := by
  match text, opens with
  | c :: [], opens => simp [opensBlankLine, reachesBreak] at opens
  | c :: d :: rest, opens =>
      simp only [opensBlankLine, List.cons_append, List.head?_cons,
        Bool.and_eq_true] at opens ⊢
      exact ⟨opens.1, reachesBreak_append opens.2 after⟩

theorem hasBlankLine_append_left {text : List Char}
    (blankLine : hasBlankLine text = true) (after : List Char) :
    hasBlankLine (text ++ after) = true := by
  induction text with
  | nil => cases blankLine
  | cons c rest induction =>
      rcases Bool.or_eq_true _ _ ▸ blankLine with opens | later
      · exact Bool.or_eq_true _ _ ▸ .inl (opensBlankLine_append opens after)
      · exact Bool.or_eq_true _ _ ▸ .inr (induction later)

theorem hasBlankLine_append_right {text : List Char}
    (blankLine : hasBlankLine text = true) (before : List Char) :
    hasBlankLine (before ++ text) = true := by
  induction before with
  | nil => exact blankLine
  | cons c rest induction => exact Bool.or_eq_true _ _ ▸ .inr induction

theorem hasBlankLine_of_part {part text : List Char} (inside : part <:+: text)
    (blankLine : hasBlankLine part = true) : hasBlankLine text = true := by
  obtain ⟨before, after, rfl⟩ := inside
  exact hasBlankLine_append_left (hasBlankLine_append_right blankLine before)
    after

theorem whole_of_part {part text : List Char} (inside : part <:+: text)
    (whole : hasBlankLine text = false) : hasBlankLine part = false := by
  rw [Bool.eq_false_iff] at whole ⊢
  exact mt (hasBlankLine_of_part inside) whole

/-! ## Separators -/

theorem blankLength_eq (pending done : Nat) (text : List Char) :
    (reachesBreak text = false ∧ blankLength pending done text = done) ∨
      ∃ lines after, text = lines ++ after ∧ reachesBreak lines = true ∧
        Blank lines ∧
        blankLength pending done text = done + pending + lines.length := by
  fun_induction blankLength pending done text with
  | case1 pending done rest induction =>
      right
      have blankBreak : Blank ['\r', '\n'] := by decide
      rcases induction with ⟨_, same⟩ | ⟨lines, after, rfl, _, blank, same⟩
      · exact ⟨['\r', '\n'], rest, rfl, rfl, blankBreak, by rw [same]; rfl⟩
      · refine ⟨'\r' :: '\n' :: lines, after, rfl, rfl,
          blankBreak.append blank, ?_⟩
        rw [same]
        simp only [List.length_cons]
        omega
  | case2 pending done c rest _ breaks induction =>
      right
      have isBreak : isBreak c = true := by simpa [isBreak] using breaks
      have blankBreak : Blank [c] := by
        simpa [Blank] using isBlank_of_isBreak isBreak
      rcases induction with ⟨_, same⟩ | ⟨lines, after, rfl, _, blank, same⟩
      · exact ⟨[c], rest, rfl, by simp [reachesBreak, isBreak], blankBreak,
          by rw [same]; rfl⟩
      · refine ⟨c :: lines, after, rfl, by simp [reachesBreak, isBreak],
          blankBreak.append blank, ?_⟩
        rw [same, List.length_cons]
        omega
  | case3 pending done c rest _ noBreak gap induction =>
      have isGap : isGap c = true := by simpa [isGap] using gap
      have isBreak : isBreak c = false := by simpa [isBreak] using noBreak
      have blankGap : Blank [c] := by
        simpa [Blank] using isBlank_of_isGap isGap
      rcases induction with
        ⟨reaches, same⟩ | ⟨lines, after, rfl, reaches, blank, same⟩
      · exact .inl ⟨by simp [reachesBreak, isBreak, isGap, reaches], same⟩
      · refine .inr ⟨c :: lines, after, rfl, ?_, blankGap.append blank,
          ?_⟩
        · simp [reachesBreak, isGap, reaches]
        · rw [same, List.length_cons]
          omega
  | case4 pending done c rest _ noBreak noGap =>
      left
      have isGap : isGap c = false := by simpa [isGap] using noGap
      have isBreak : isBreak c = false := by simpa [isBreak] using noBreak
      exact ⟨by simp [reachesBreak, isBreak, isGap], rfl⟩
  | case5 => exact .inl ⟨rfl, rfl⟩

/-- The line break at the front of a text, and what makes a blank line of what
follows it. -/
theorem breakLength_eq (text : List Char) :
    (breakLength text = 0 ∧ opensBlankLine text = false) ∨
      ∃ ending rest, text = ending ++ rest ∧ 0 < ending.length ∧
        breakLength text = ending.length ∧ Blank ending ∧
        (reachesBreak rest = false → opensBlankLine text = false) ∧
        ∀ lines after, rest = lines ++ after → reachesBreak lines = true →
          hasBlankLine (ending ++ lines) = true := by
  fun_cases breakLength text with
  | case1 rest =>
      right
      refine ⟨['\r', '\n'], rest, rfl, by decide, rfl, by decide, fun _ => rfl,
        ?_⟩
      intro lines _ _ reaches
      simp [hasBlankLine, opensBlankLine, isBreak, reaches]
  | case2 rest alone =>
      right
      refine ⟨['\r'], rest, rfl, by decide, rfl, by decide, ?_, ?_⟩
      · intro stays
        simp [opensBlankLine, stays]
      · intro lines after split reaches
        have notFeed : lines.head? ≠ some '\n' := by
          intro feed
          obtain ⟨more, rfl⟩ := List.head?_eq_some_iff.mp feed
          exact alone (more ++ after) split
        simp [hasBlankLine, opensBlankLine, isBreak, reaches, notFeed]
  | case3 rest =>
      right
      refine ⟨['\n'], rest, rfl, by decide, rfl, by decide, ?_, ?_⟩
      · intro stays
        simp [opensBlankLine, stays]
      · intro lines _ _ reaches
        simp [hasBlankLine, opensBlankLine, isBreak, reaches]
  | case4 _ _ notReturn notFeed =>
      left
      refine ⟨rfl, ?_⟩
      cases text with
      | nil => rfl
      | cons c rest =>
          have noBreak : isBreak c = false := by
            simp only [isBreak, Bool.or_eq_false_iff, beq_eq_false_iff_ne]
            exact ⟨fun same => notReturn rest (by rw [same]),
              fun same => notFeed rest (by rw [same])⟩
          simp [opensBlankLine, noBreak]

/-- A separator is white space with a blank line in it.  Where none starts, no
blank line follows at once. -/
theorem separatorLength?_cases (text : List Char) :
    (separatorLength? text = none ∧ opensBlankLine text = false) ∨
      ∃ separator after, text = separator ++ after ∧
        separatorLength? text = some separator.length ∧ Blank separator ∧
        hasBlankLine separator = true := by
  unfold separatorLength?
  rcases breakLength_eq text with ⟨none, stays⟩ |
    ⟨ending, rest, rfl, positive, length, blankEnding, stays, opens⟩
  · exact .inl ⟨by simp [none], stays⟩
  · have notZero : ending.length ≠ 0 := by omega
    simp only [length, notZero, if_false, List.drop_left]
    rcases blankLength_eq 0 0 rest with ⟨noBreak, none⟩ |
      ⟨lines, after, split, reaches, blank, some⟩
    · rw [none]
      exact .inl ⟨rfl, stays noBreak⟩
    · right
      refine ⟨ending ++ lines, after, by rw [split, List.append_assoc], ?_,
        blankEnding.append blank, opens lines after split reaches⟩
      cases lines with
      | nil => cases reaches
      | cons c lines =>
          rw [some, List.length_append]
          simp

theorem cut_skip (skip : Nat) (chunk text : List Char) :
    cut skip chunk text = cut 0 chunk (text.drop skip) := by
  induction skip generalizing text with
  | zero => rfl
  | succ skip induction =>
      cases text with
      | nil => rfl
      | cons c rest => exact induction rest

theorem cut_cases (chunk : List Char) (c : Char) (rest : List Char) :
    (opensBlankLine (c :: rest) = false ∧
        cut 0 chunk (c :: rest) = cut 0 (c :: chunk) rest) ∨
      ∃ separator after, c :: rest = separator ++ after ∧ Blank separator ∧
        hasBlankLine separator = true ∧
        cut 0 chunk (c :: rest) = chunk.reverse :: cut 0 [] after := by
  rcases separatorLength?_cases (c :: rest) with
    ⟨none, stays⟩ | ⟨separator, after, split, some, blank, blankLine⟩
  · left
    rw [cut, none]
    exact ⟨stays, rfl⟩
  · right
    refine ⟨separator, after, split, blank, blankLine, ?_⟩
    cases separator with
    | nil => cases blankLine
    | cons first others =>
        rw [cut, some]
        obtain ⟨_, rfl⟩ := List.cons.inj split
        show chunk.reverse :: cut others.length [] (others ++ after) = _
        rw [cut_skip, List.drop_left]

/-! ## The pieces -/

theorem hasBlankLine_iff {text : List Char} :
    hasBlankLine text = true ↔
      ∃ tail, tail <:+ text ∧ opensBlankLine tail = true := by
  constructor
  · intro blankLine
    induction text with
    | nil => cases blankLine
    | cons c rest induction =>
        rcases Bool.or_eq_true _ _ ▸ blankLine with opens | later
        · exact ⟨c :: rest, List.suffix_refl _, opens⟩
        · obtain ⟨tail, behind, opens⟩ := induction later
          exact ⟨tail, behind.trans (List.suffix_cons c rest), opens⟩
  · intro ⟨tail, behind, opens⟩
    apply hasBlankLine_of_part behind.isInfix
    cases tail with
    | nil => cases opens
    | cons c rest => exact Bool.or_eq_true _ _ ▸ .inl opens

/-- No blank line opens in a text, whatever comes of what follows it. -/
def Quiet (before after : List Char) : Prop :=
  ∀ c tail, c :: tail <:+ before → opensBlankLine (c :: tail ++ after) = false

theorem quiet_nil (text : List Char) : Quiet [] text := by
  intro c tail behind
  cases List.suffix_nil.mp behind

theorem Quiet.snoc {before after : List Char} {c : Char}
    (quiet : Quiet before (c :: after))
    (stays : opensBlankLine (c :: after) = false) :
    Quiet (before ++ [c]) after := by
  intro first tail behind
  rcases List.suffix_concat_iff.mp behind with none | ⟨rest, split, behind⟩
  · cases none
  · rw [split, List.append_assoc]
    cases rest with
    | nil => exact stays
    | cons d rest => exact quiet d rest behind

theorem Quiet.hasBlankLine {before after : List Char}
    (quiet : Quiet before after) : hasBlankLine before = false := by
  rw [Bool.eq_false_iff]
  intro blankLine
  obtain ⟨tail, behind, opens⟩ := hasBlankLine_iff.mp blankLine
  cases tail with
  | nil => cases opens
  | cons c tail =>
      have later := opensBlankLine_append opens after
      rw [quiet c tail behind] at later
      cases later

theorem hasBlankLine_of_mem_cut {chunk text piece : List Char}
    (quiet : Quiet chunk.reverse text) (member : piece ∈ cut 0 chunk text) :
    hasBlankLine piece = false := by
  induction size : text.length using Nat.strongRecOn
    generalizing chunk text with
  | ind size induction =>
      cases text with
      | nil =>
          rw [cut, List.mem_singleton] at member
          rw [member]
          exact quiet.hasBlankLine
      | cons c rest =>
          rcases cut_cases chunk c rest with
            ⟨stays, goes⟩ | ⟨separator, after, split, _, blankLine, cuts⟩
          · rw [goes] at member
            refine induction rest.length ?_ ?_ member rfl
            · rw [← size, List.length_cons]
              omega
            · rw [List.reverse_cons]
              exact quiet.snoc stays
          · rw [cuts, List.mem_cons] at member
            rcases member with rfl | later
            · exact quiet.hasBlankLine
            · have quietAfter : Quiet [].reverse after := quiet_nil after
              refine induction after.length ?_ quietAfter later rfl
              cases separator with
              | nil => cases blankLine
              | cons d separator =>
                  rw [← size, split, List.length_append, List.length_cons]
                  omega

/-! ## White space at the ends -/

/-- A text that starts with a visible character, if with any. -/
def StartsVisible (text : List Char) : Prop :=
  ∀ c ∈ text.head?, Text.isBlank c = false

/-- A text that ends with a visible character, if with any. -/
def EndsVisible (text : List Char) : Prop :=
  ∀ c ∈ text.getLast?, Text.isBlank c = false

theorem dropWhile_of_startsVisible {text : List Char}
    (visible : StartsVisible text) : text.dropWhile Text.isBlank = text := by
  cases text with
  | nil => rfl
  | cons c rest => simp [visible c rfl]

theorem EndsVisible.reverse {text : List Char} (visible : EndsVisible text) :
    StartsVisible text.reverse := by
  intro c member
  rw [List.head?_reverse] at member
  exact visible c member

theorem dropWhile_blank {lead : List Char} (blank : Blank lead)
    (text : List Char) :
    (lead ++ text).dropWhile Text.isBlank = text.dropWhile Text.isBlank :=
  List.dropWhile_append_of_pos blank

theorem stripChars_eq {lead body tail : List Char} (before : Blank lead)
    (starts : StartsVisible (body ++ tail)) (ends : EndsVisible body)
    (behind : Blank tail) : Text.stripChars (lead ++ body ++ tail) = body := by
  rw [Text.stripChars, List.append_assoc, dropWhile_blank before,
    dropWhile_of_startsVisible starts, List.reverse_append,
    dropWhile_blank behind.reverse, dropWhile_of_startsVisible ends.reverse,
    List.reverse_reverse]

theorem exists_around_stripChars (text : List Char) :
    ∃ lead tail, text = lead ++ (Text.stripChars text ++ tail) ∧ Blank lead ∧
      StartsVisible (Text.stripChars text ++ tail) ∧
      EndsVisible (Text.stripChars text) ∧ Blank tail := by
  have startsVisible_dropWhile : ∀ text : List Char,
      StartsVisible (text.dropWhile Text.isBlank) := by
    intro text c member
    have first := List.head?_dropWhile_not Text.isBlank text
    rw [member] at first
    exact first
  have blank_takeWhile : ∀ text : List Char,
      Blank (text.takeWhile Text.isBlank) := by
    intro text c member
    exact List.all_eq_true.mp List.all_takeWhile c member
  let behind := (text.dropWhile Text.isBlank).reverse.takeWhile Text.isBlank
  have whole : Text.stripChars text ++ behind.reverse =
      text.dropWhile Text.isBlank := by
    rw [Text.stripChars, ← List.reverse_append, List.takeWhile_append_dropWhile,
      List.reverse_reverse]
  refine ⟨text.takeWhile Text.isBlank, behind.reverse, ?_,
    blank_takeWhile text, ?_, ?_, ?_⟩
  · rw [whole, List.takeWhile_append_dropWhile]
  · rw [whole]
    exact startsVisible_dropWhile text
  · intro c member
    rw [Text.stripChars, List.getLast?_reverse] at member
    exact startsVisible_dropWhile _ c member
  · exact (blank_takeWhile _).reverse

theorem stripChars_blank_append {lead : List Char} (blank : Blank lead)
    (text : List Char) :
    Text.stripChars (lead ++ text) = Text.stripChars text := by
  rw [Text.stripChars, dropWhile_blank blank, ← Text.stripChars]

theorem stripChars_eq_nil_iff {text : List Char} :
    Text.stripChars text = [] ↔ Blank text := by
  constructor
  · intro nothing
    obtain ⟨lead, tail, whole, before, _, _, behind⟩ :=
      exists_around_stripChars text
    rw [whole, nothing]
    exact before.append behind
  · intro blank
    rw [← List.append_nil text, stripChars_blank_append blank]
    rfl

theorem stripChars_append_blank {tail : List Char} (blank : Blank tail)
    (text : List Char) :
    Text.stripChars (text ++ tail) = Text.stripChars text := by
  obtain ⟨lead, gap, whole, before, starts, ends, behind⟩ :=
    exists_around_stripChars text
  cases body : Text.stripChars text with
  | nil =>
      rw [stripChars_eq_nil_iff] at body ⊢
      exact body.append blank
  | cons c rest =>
      rw [whole, ← body, List.append_assoc, List.append_assoc,
        ← List.append_assoc]
      apply stripChars_eq before _ ends (behind.append blank)
      rw [body] at starts ⊢
      exact starts

theorem stripChars_idem (text : List Char) :
    Text.stripChars (Text.stripChars text) = Text.stripChars text := by
  obtain ⟨lead, tail, _, _, starts, ends, behind⟩ :=
    exists_around_stripChars text
  have again := stripChars_eq Sexpr.blank_nil starts ends behind
  rwa [List.nil_append, stripChars_append_blank behind] at again

theorem stripChars_part (text : List Char) :
    Text.stripChars text <:+: text := by
  obtain ⟨lead, tail, whole, _⟩ := exists_around_stripChars text
  exact ⟨lead, tail, by rw [List.append_assoc, ← whole]⟩

/-! ## Joined texts -/

/-- A separator does not reach over a visible character. -/
theorem exists_of_visible {body rest separator after : List Char} {c : Char}
    (split : body ++ rest = separator ++ after) (blank : Blank separator)
    (visible : Text.isBlank c = false) (member : c ∈ body) :
    ∃ more, body = separator ++ more ∧ after = more ++ rest := by
  rcases List.append_eq_append_iff.mp split with
    ⟨more, outside, _⟩ | ⟨more, inside, same⟩
  · have reached : c ∈ separator := by
      rw [outside]
      exact List.mem_append_left more member
    rw [blank c reached] at visible
    cases visible
  · exact ⟨more, inside, same⟩

theorem cut_body {body : List Char} (ends : EndsVisible body)
    (whole : hasBlankLine body = false) (chunk rest : List Char) :
    cut 0 chunk (body ++ rest) = cut 0 (body.reverse ++ chunk) rest := by
  induction body generalizing chunk with
  | nil => rfl
  | cons c body induction =>
      rcases cut_cases chunk c (body ++ rest) with
        ⟨_, goes⟩ | ⟨separator, after, split, blank, blankLine, _⟩
      · have endsLater : EndsVisible body := by
          intro d last
          apply ends
          cases body with
          | nil => cases last
          | cons e body => exact last
        rw [List.cons_append, goes,
          induction endsLater (Bool.or_eq_false_iff.mp whole).2,
          List.reverse_cons, List.append_assoc, List.singleton_append]
      · have nonempty := List.cons_ne_nil c body
        have visible := ends _ (List.getLast?_eq_some_getLast nonempty)
        rw [← List.cons_append] at split
        obtain ⟨more, inside, _⟩ :=
          exists_of_visible split blank visible (List.getLast_mem nonempty)
        rw [inside, hasBlankLine_append_left blankLine more] at whole
        cases whole

/-- The pieces without the white space around them. -/
def bodies (pieces : List (List Char)) : List (List Char) :=
  (pieces.map Text.stripChars).filter fun chunk => !chunk.isEmpty

@[simp] theorem bodies_append (before after : List (List Char)) :
    bodies (before ++ after) = bodies before ++ bodies after := by
  simp [bodies]

theorem bodies_cons (piece : List Char) (pieces : List (List Char)) :
    bodies (piece :: pieces) = bodies [piece] ++ bodies pieces :=
  bodies_append [piece] pieces

theorem bodies_blank {piece : List Char} (blank : Blank piece) :
    bodies [piece] = [] := by
  rw [bodies, List.map_singleton, stripChars_eq_nil_iff.mpr blank]
  rfl

theorem bodies_visible {piece : List Char} (visible : ¬Blank piece) :
    bodies [piece] = [Text.stripChars piece] := by
  have nonempty : Text.stripChars piece ≠ [] := by
    rwa [Ne, stripChars_eq_nil_iff]
  simp [bodies, nonempty]

theorem bodies_append_blank {gap : List Char} (blank : Blank gap)
    (piece : List Char) : bodies [piece ++ gap] = bodies [piece] := by
  simp [bodies, stripChars_append_blank blank]

theorem exists_of_startsVisible {gap rest separator after : List Char}
    (split : gap ++ rest = separator ++ after) (blank : Blank separator)
    (visible : StartsVisible rest) :
    ∃ more, gap = separator ++ more ∧ after = more ++ rest := by
  rcases List.append_eq_append_iff.mp split with
    ⟨more, outside, follows⟩ | inside
  · cases more with
    | nil => exact ⟨[], by simpa using outside.symm, follows.symm⟩
    | cons c more =>
        have covered := blank c (by rw [outside]; simp)
        rw [visible c (by rw [follows]; rfl)] at covered
        cases covered
  · exact inside

/-- White space in front of a visible character is cut just when it has a
blank line.  The chunk before it is then a piece, and the others are white
space. -/
theorem bodies_cut_blank {gap rest : List Char} (blank : Blank gap)
    (visible : StartsVisible rest) (chunk : List Char) :
    (hasBlankLine gap = false ∧
        cut 0 chunk (gap ++ rest) = cut 0 (gap.reverse ++ chunk) rest) ∨
      ∃ last, Blank last ∧ bodies (cut 0 chunk (gap ++ rest)) =
        bodies [chunk.reverse] ++ bodies (cut 0 last rest) := by
  induction size : gap.length using Nat.strongRecOn
    generalizing gap chunk with
  | ind bound induction =>
      cases gap with
      | nil => exact .inl ⟨rfl, rfl⟩
      | cons c gap =>
          have blankRest : Blank gap :=
            fun d member => blank d (List.mem_cons_of_mem c member)
          rcases cut_cases chunk c (gap ++ rest) with
            ⟨stays, goes⟩ | ⟨separator, after, split, isBlank, blankLine, cuts⟩
          · have shorter : gap.length < bound := by
              rw [← size, List.length_cons]
              omega
            rw [List.cons_append, goes]
            rcases induction _ shorter blankRest (c :: chunk) rfl with
              ⟨none, same⟩ | ⟨last, blankLast, same⟩
            · left
              refine ⟨?_, by simp [same]⟩
              have closed : opensBlankLine (c :: gap) = false := by
                rw [Bool.eq_false_iff]
                intro opens
                have later := opensBlankLine_append opens rest
                rw [List.cons_append, stays] at later
                cases later
              rw [hasBlankLine, closed, none]
              rfl
            · right
              have blankFirst : Blank [c] := by
                simpa [Blank] using blank c List.mem_cons_self
              rw [List.reverse_cons, bodies_append_blank blankFirst] at same
              exact ⟨last, blankLast, same⟩
          · rw [← List.cons_append] at split
            obtain ⟨more, inside, rfl⟩ :=
              exists_of_startsVisible split isBlank visible
            have shorter : more.length < bound := by
              cases separator with
              | nil => cases blankLine
              | cons d separator =>
                  rw [← size, inside, List.length_append, List.length_cons]
                  omega
            have blankMore : Blank more := by
              intro d member
              apply blank
              rw [inside]
              exact List.mem_append_right separator member
            right
            rw [List.cons_append, cuts, bodies_cons]
            rcases induction _ shorter blankMore [] rfl with
              ⟨_, same⟩ | ⟨last, blankLast, same⟩
            · refine ⟨more.reverse, blankMore.reverse, ?_⟩
              rw [same, List.append_nil]
            · exact ⟨last, blankLast, by
                rw [same, List.reverse_nil, bodies_blank Sexpr.blank_nil,
                  List.nil_append]⟩

theorem exists_intercalate_cons (text : List Char) (texts : List (List Char)) :
    ∃ ending, Blank ending ∧ (texts ≠ [] → hasBlankLine ending = true) ∧
      ['\n', '\n'].intercalate (text :: texts) =
        text ++ (ending ++ ['\n', '\n'].intercalate texts) := by
  cases texts with
  | nil => exact ⟨[], Sexpr.blank_nil, by simp, by simp⟩
  | cons next texts =>
      refine ⟨['\n', '\n'], by decide, fun _ => by decide, ?_⟩
      rw [List.intercalate_cons_cons, List.append_assoc]

/-- Visible texts without a blank line are found again in their join, behind
the chunk so far. -/
theorem bodies_cut_joined {texts : List (List Char)}
    (visible : ∀ text ∈ texts, ¬Blank text)
    (whole : ∀ text ∈ texts, hasBlankLine (Text.stripChars text) = false)
    {gap chunk : List Char} (blank : Blank gap)
    (parted : texts ≠ [] → Blank chunk ∨ hasBlankLine gap = true) :
    bodies (cut 0 chunk (gap ++ ['\n', '\n'].intercalate texts)) =
      bodies [chunk.reverse] ++ texts.map Text.stripChars := by
  induction texts generalizing gap chunk with
  | nil =>
      have nothing : StartsVisible [] := by
        intro c member
        cases member
      rw [List.intercalate_nil, List.map_nil]
      rcases bodies_cut_blank blank nothing chunk with
        ⟨_, same⟩ | ⟨last, blankLast, same⟩
      · rw [same, cut, List.reverse_append, List.reverse_reverse,
          bodies_append_blank blank, List.append_nil]
      · rw [same, cut, bodies_blank blankLast.reverse]
  | cons text texts induction =>
      obtain ⟨visibleText, visibleTexts⟩ := List.forall_mem_cons.mp visible
      obtain ⟨wholeText, wholeTexts⟩ := List.forall_mem_cons.mp whole
      obtain ⟨ending, blankEnding, ended, joined⟩ :=
        exists_intercalate_cons text texts
      obtain ⟨lead, tail, split, before, starts, ends, behind⟩ :=
        exists_around_stripChars text
      -- What follows the body is white space in front of the later texts.
      have later : ∀ chunk, Blank chunk →
          bodies (cut 0 chunk (Text.stripChars text ++
            (tail ++ ending ++ ['\n', '\n'].intercalate texts))) =
          Text.stripChars text :: texts.map Text.stripChars := by
        intro chunk blankChunk
        have same : Text.stripChars (chunk.reverse ++ Text.stripChars text) =
            Text.stripChars text := by
          rw [stripChars_blank_append blankChunk.reverse, stripChars_idem]
        have notBlank : ¬Blank (chunk.reverse ++ Text.stripChars text) := by
          rwa [← stripChars_eq_nil_iff, same, stripChars_eq_nil_iff]
        have parted : texts ≠ [] →
            Blank ((Text.stripChars text).reverse ++ chunk) ∨
              hasBlankLine (tail ++ ending) = true := by
          intro more
          exact .inr (hasBlankLine_append_right (ended more) tail)
        rw [cut_body ends wholeText, induction visibleTexts wholeTexts
          (behind.append blankEnding) parted, List.reverse_append,
          List.reverse_reverse, bodies_visible notBlank, same]
        rfl
      have arranged : gap ++ ['\n', '\n'].intercalate (text :: texts) =
          (gap ++ lead) ++ (Text.stripChars text ++
            (tail ++ ending ++ ['\n', '\n'].intercalate texts)) := by
        rw [joined]
        calc gap ++ (text ++ (ending ++ ['\n', '\n'].intercalate texts))
            = gap ++ ((lead ++ (Text.stripChars text ++ tail)) ++
                (ending ++ ['\n', '\n'].intercalate texts)) := by
              rw [← split]
          _ = _ := by simp only [List.append_assoc]
      have startsBody : StartsVisible (Text.stripChars text ++
          (tail ++ ending ++ ['\n', '\n'].intercalate texts)) := by
        have nonempty := mt stripChars_eq_nil_iff.mp visibleText
        obtain ⟨c, rest, body⟩ := List.exists_cons_of_ne_nil nonempty
        rw [body] at starts ⊢
        exact starts
      rw [arranged]
      rcases bodies_cut_blank (blank.append before) startsBody chunk with
        ⟨none, same⟩ | ⟨last, blankLast, same⟩
      · have blankChunk : Blank chunk := by
          rcases parted (List.cons_ne_nil text texts) with blankChunk | line
          · exact blankChunk
          · rw [hasBlankLine_append_left line lead] at none
            cases none
        rw [same, later _ ((blank.append before).reverse.append blankChunk),
          bodies_blank blankChunk.reverse]
        rfl
      · rw [same, later last blankLast]
        rfl

theorem toList_strip (text : String) :
    (Text.strip text).toList = Text.stripChars text.toList :=
  String.toList_ofList

/-- No formula of a batch has a blank line. -/
theorem hasBlankLine_of_mem_split {text formula : String}
    (member : formula ∈ split text) : hasBlankLine formula.toList = false := by
  obtain ⟨body, kept, rfl⟩ := List.mem_map.mp member
  obtain ⟨piece, isPiece, rfl⟩ := List.mem_map.mp (List.mem_filter.mp kept).1
  have quiet : Quiet [].reverse text.toList := quiet_nil text.toList
  have whole := hasBlankLine_of_mem_cut quiet isPiece
  rw [String.toList_ofList]
  exact whole_of_part (stripChars_part piece) whole

/-- Visible texts are found again in their join just when none of them has a
blank line. -/
theorem split_joined_iff {texts : List String}
    (visible : ∀ text ∈ texts, ¬Blank text.toList) :
    split ("\n\n".intercalate texts) = texts.map Text.strip ↔
      ∀ text ∈ texts, hasBlankLine (Text.strip text).toList = false := by
  constructor
  · intro same text member
    apply hasBlankLine_of_mem_split
    rw [same]
    exact List.mem_map_of_mem member
  · intro whole
    have visibleChars : ∀ chars ∈ texts.map String.toList, ¬Blank chars := by
      simpa using visible
    have wholeChars : ∀ chars ∈ texts.map String.toList,
        hasBlankLine (Text.stripChars chars) = false := by
      simpa [toList_strip] using whole
    have found := bodies_cut_joined visibleChars wholeChars Sexpr.blank_nil
      fun _ => .inl Sexpr.blank_nil
    rw [List.nil_append, List.reverse_nil, bodies_blank Sexpr.blank_nil,
      List.nil_append] at found
    have joined : ("\n\n".intercalate texts).toList =
        ['\n', '\n'].intercalate (texts.map String.toList) :=
      String.toList_intercalate
    have pieces : split ("\n\n".intercalate texts) =
        (bodies (cut 0 [] ("\n\n".intercalate texts).toList)).map
          String.ofList := rfl
    rw [pieces, joined, found, List.map_map, List.map_map]
    rfl

end Batch

end FormulaEdit
