import FormulaEdit.Proofs.Batch.BlankLines

/-!
# Formulas and the lines of a batch

The formulas of a batch are the runs of lines that are not blank.  The scanner
looks for separators from character to character instead, and so may keep a
blank line, or part of a line break, at the edge of a chunk; but whatever it
keeps there is stripped with the other white space.
-/

namespace FormulaEdit.Batch

open Sexpr (Blank)

/-! ## Lines -/

/-- A line of a text, with the line break that ends it; the last line of a text
has none. -/
structure Line where
  content : List Char
  ending : List Char
deriving DecidableEq, Repr

/-- Whether a line holds nothing but spaces and tabs. -/
def Line.isBlank (line : Line) : Bool := line.content.all isGap

/-- Cut a text at its line breaks: a line feed, a carriage return, or both in
the other order. -/
def lines : List Char → List Line
  | [] => [⟨[], []⟩]
  | '\r' :: '\n' :: rest => ⟨[], ['\r', '\n']⟩ :: lines rest
  | c :: rest =>
      if isBreak c then ⟨[], [c]⟩ :: lines rest
      else
        match lines rest with
        | [] => []
        | first :: others =>
            { first with content := c :: first.content } :: others

/-- The text of consecutive lines, with the line breaks between them. -/
def joinLines : List Line → List Char
  | [] => []
  | [line] => line.content
  | line :: rest => line.content ++ line.ending ++ joinLines rest

/-- The longest runs of consecutive lines that are not blank. -/
def paragraphs (lines : List Line) : List (List Line) :=
  (lines.splitOnP Line.isBlank).filter fun run => !run.isEmpty

theorem lines_ne_nil (text : List Char) : lines text ≠ [] := by
  fun_induction lines text with
  | case1 => exact List.cons_ne_nil _ _
  | case2 => exact List.cons_ne_nil _ _
  | case3 => exact List.cons_ne_nil _ _
  | case4 c rest _ _ none induction => exact absurd none induction
  | case5 => exact List.cons_ne_nil _ _

theorem lines_cases (text : List Char) :
    ((∀ c ∈ text, isBreak c = false) ∧ lines text = [⟨text, []⟩]) ∨
      ∃ content ending rest, text = content ++ ending ++ rest ∧
        (∀ c ∈ content, isBreak c = false) ∧ Breaks ending rest ∧
        lines text = ⟨content, ending⟩ :: lines rest := by
  fun_induction lines text with
  | case1 => exact .inl ⟨by simp, rfl⟩
  | case2 rest _ =>
      exact .inr ⟨[], _, rest, rfl, by simp, .both rest, rfl⟩
  | case3 c rest notBoth breaks _ =>
      refine .inr ⟨[], [c], rest, rfl, by simp, ?_, rfl⟩
      rcases Bool.or_eq_true _ _ ▸ breaks with same | same
      · obtain rfl := eq_of_beq same
        apply Breaks.ret
        intro feed
        obtain ⟨more, rfl⟩ := List.head?_eq_some_iff.mp feed
        exact notBoth more rfl rfl
      · obtain rfl := eq_of_beq same
        exact .feed rest
  | case4 c rest _ _ none => exact absurd none (lines_ne_nil rest)
  | case5 c rest _ noBreak first others found induction =>
      have noBreak : isBreak c = false := by simpa using noBreak
      rcases induction with ⟨unbroken, single⟩ |
        ⟨content, ending, later, rfl, unbroken, breaks, parts⟩
      · rw [found] at single
        cases single
        exact .inl ⟨List.forall_mem_cons.mpr ⟨noBreak, unbroken⟩, rfl⟩
      · rw [found] at parts
        cases parts
        exact .inr ⟨c :: content, ending, later, rfl,
          List.forall_mem_cons.mpr ⟨noBreak, unbroken⟩, breaks, rfl⟩

/-! ## The scanner goes from line to line -/

theorem separatorLength?_of_unbroken {c : Char} (noBreak : isBreak c = false)
    (rest : List Char) : separatorLength? (c :: rest) = none := by
  have other : c ≠ '\r' ∧ c ≠ '\n' := by simpa [isBreak] using noBreak
  simp [separatorLength?, breakLength, other]

theorem cut_content {content : List Char}
    (unbroken : ∀ c ∈ content, isBreak c = false) (chunk rest : List Char) :
    cut 0 chunk (content ++ rest) = cut 0 (content.reverse ++ chunk) rest := by
  induction content generalizing chunk with
  | nil => rfl
  | cons c content induction =>
      obtain ⟨noBreak, unbroken⟩ := List.forall_mem_cons.mp unbroken
      rw [List.cons_append, cut, separatorLength?_of_unbroken noBreak]
      simp only
      rw [induction unbroken, List.reverse_cons, List.append_assoc,
        List.singleton_append]

theorem cut_ending {ending rest : List Char} (breaks : Breaks ending rest)
    (chunk : List Char) :
    cut 0 chunk (ending ++ rest) =
      if blankLength 0 0 rest = 0 then cut 0 (ending.reverse ++ chunk) rest
      else chunk.reverse :: cut 0 [] (rest.drop (blankLength 0 0 rest)) := by
  have length := breaks.separatorLength?_eq
  split
  next zero =>
    rw [if_pos zero] at length
    cases breaks with
    | both =>
        have second : separatorLength? ('\n' :: rest) = none := by
          have alone := (Breaks.feed rest).separatorLength?_eq
          rwa [if_pos zero] at alone
        simp only [List.cons_append, List.nil_append] at length ⊢
        rw [cut, length]
        simp only
        rw [cut, second]
        rfl
    | feed =>
        simp only [List.cons_append, List.nil_append] at length ⊢
        rw [cut, length]
        rfl
    | ret =>
        simp only [List.cons_append, List.nil_append] at length ⊢
        rw [cut, length]
        rfl
  next some =>
    rw [if_neg some] at length
    have first := @cut_of_first (ending ++ rest) 0 _
      (fun place below => absurd below (Nat.not_lt_zero place)) length chunk
    rw [first, Nat.zero_add, List.take_zero, List.append_nil,
      ← List.drop_drop, List.drop_left]

theorem blankLength_blank {content ending rest : List Char}
    (gaps : content.all isGap = true) (breaks : Breaks ending rest) :
    blankLength 0 0 (content ++ ending ++ rest) =
      content.length + ending.length + blankLength 0 0 rest := by
  rw [List.append_assoc, blankLength_gaps gaps, breaks.blankLength_eq,
    Nat.zero_add, Nat.zero_add]
  exact blankLength_add (content.length + ending.length) 0 0 rest

theorem blankLength_visible {content : List Char}
    (unbroken : ∀ c ∈ content, isBreak c = false) {rest : List Char}
    (stops : content.all isGap = false ∨ rest = []) (pending done : Nat) :
    blankLength pending done (content ++ rest) = done := by
  induction content generalizing pending with
  | nil =>
      rcases stops with no | rfl
      · cases no
      · rfl
  | cons c content induction =>
      obtain ⟨noBreak, unbroken⟩ := List.forall_mem_cons.mp unbroken
      rw [List.cons_append, blankLength_cons noBreak]
      cases gap : isGap c with
      | false => rfl
      | true =>
          rw [if_pos rfl]
          apply induction unbroken
          simpa [gap] using stops

/-! ## Paragraphs -/

theorem Breaks.blank {ending rest : List Char} (breaks : Breaks ending rest) :
    Blank ending := by
  cases breaks with
  | both => decide
  | feed => decide
  | ret => decide

theorem blank_of_isBlank {line : Line} (blank : line.isBlank = true) :
    Blank line.content := by
  intro c member
  exact isBlank_of_isGap (List.all_eq_true.mp blank c member)

/-- What blank lines leave of a text, behind a chunk that belongs to the first
line. -/
def pieces (chunk : List Char) (lines : List Line) : List (List Char) :=
  ((lines.splitOnP Line.isBlank).map joinLines).modifyHead (chunk ++ ·)

theorem exists_splitOnP (lines : List Line) :
    ∃ first others, lines.splitOnP Line.isBlank = first :: others :=
  List.exists_cons_of_ne_nil (List.splitOnP_ne_nil _ _)

theorem bodies_pieces_lead {lead : List Char} (blank : Blank lead)
    (lines : List Line) :
    bodies (pieces lead lines) = bodies (pieces [] lines) := by
  obtain ⟨first, others, parts⟩ := exists_splitOnP lines
  simp [pieces, parts, bodies, stripChars_blank_append blank]

theorem bodies_pieces_blank {line : Line} (blank : line.isBlank = true)
    (chunk : List Char) (lines : List Line) :
    bodies (pieces chunk (line :: lines)) =
      bodies [chunk] ++ bodies (pieces [] lines) := by
  obtain ⟨first, others, parts⟩ := exists_splitOnP lines
  rw [pieces, List.splitOnP_cons_eq_if_modifyHead, if_pos blank,
    ← bodies_append]
  simp [pieces, parts, joinLines]

theorem bodies_pieces_visible {content ending : List Char}
    (visible : Line.isBlank ⟨content, ending⟩ = false) (blank : Blank ending)
    (chunk : List Char) (lines : List Line) :
    bodies (pieces chunk (⟨content, ending⟩ :: lines)) =
      bodies (pieces (chunk ++ content ++ ending) lines) := by
  obtain ⟨first, others, parts⟩ := exists_splitOnP lines
  rw [pieces, List.splitOnP_cons_eq_if_modifyHead, visible,
    if_neg Bool.false_ne_true, pieces, parts]
  cases first with
  | nil =>
      simp only [List.modifyHead_cons, List.map_cons, joinLines,
        List.append_nil]
      rw [bodies_cons, bodies_cons (chunk ++ content ++ ending),
        bodies_append_blank blank]
  | cons next first => simp [joinLines]

theorem bodies_paragraphs (lines : List Line) :
    bodies ((paragraphs lines).map joinLines) = bodies (pieces [] lines) := by
  have all : pieces [] lines =
      (lines.splitOnP Line.isBlank).map joinLines := by
    obtain ⟨first, others, parts⟩ := exists_splitOnP lines
    simp [pieces, parts]
  rw [all, paragraphs]
  induction lines.splitOnP Line.isBlank with
  | nil => rfl
  | cons run runs induction =>
      rw [List.map_cons, bodies_cons, ← induction]
      cases run with
      | nil => rw [joinLines, bodies_blank Sexpr.blank_nil]; rfl
      | cons line run => exact bodies_cons _ _

/-- Blank lines in front of a text can be left out. -/
theorem bodies_pieces_drop (text : List Char) :
    bodies (pieces [] (lines (text.drop (blankLength 0 0 text)))) =
      bodies (pieces [] (lines text)) := by
  induction size : text.length using Nat.strongRecOn generalizing text with
  | ind bound induction =>
      rcases lines_cases text with ⟨unbroken, _⟩ |
        ⟨content, ending, rest, rfl, unbroken, breaks, parts⟩
      · have none := blankLength_visible unbroken (.inr rfl) 0 0
        rw [List.append_nil] at none
        rw [none, List.drop_zero]
      · cases blank : Line.isBlank ⟨content, ending⟩ with
        | false =>
            rw [List.append_assoc, blankLength_visible unbroken (.inl blank),
              List.drop_zero]
        | true =>
            have shorter : rest.length < bound := by
              have positive := breaks.length_pos
              rw [List.length_append, List.length_append] at size
              omega
            rw [blankLength_blank blank breaks, ← List.drop_drop,
              ← List.length_append, List.drop_left, parts,
              bodies_pieces_blank blank, bodies_blank Sexpr.blank_nil,
              List.nil_append]
            exact induction rest.length shorter rest rfl

/-- A blank line in front of a text parts it from what stands before. -/
theorem bodies_pieces_parted {text : List Char}
    (counted : blankLength 0 0 text ≠ 0) (chunk : List Char) :
    bodies (pieces chunk (lines text)) =
      bodies [chunk] ++ bodies (pieces [] (lines text)) := by
  rcases lines_cases text with ⟨unbroken, _⟩ |
    ⟨content, ending, rest, rfl, unbroken, _, parts⟩
  · have none := blankLength_visible unbroken (.inr rfl) 0 0
    rw [List.append_nil] at none
    exact absurd none counted
  · cases blank : Line.isBlank ⟨content, ending⟩ with
    | false =>
        rw [List.append_assoc,
          blankLength_visible unbroken (.inl blank)] at counted
        exact absurd rfl counted
    | true =>
        rw [parts, bodies_pieces_blank blank, bodies_pieces_blank blank,
          bodies_blank Sexpr.blank_nil, List.nil_append]

/-- The scanner finds what blank lines leave of a text.  A chunk in front of a
blank line would have been cut off before. -/
theorem bodies_cut_eq (text chunk : List Char)
    (parted : Blank chunk ∨ blankLength 0 0 text = 0) :
    bodies (cut 0 chunk.reverse text) = bodies (pieces chunk (lines text)) := by
  induction size : text.length using Nat.strongRecOn
    generalizing text chunk with
  | ind bound induction =>
      rcases lines_cases text with ⟨unbroken, single⟩ |
        ⟨content, ending, rest, rfl, unbroken, breaks, parts⟩
      · have whole := cut_content unbroken chunk.reverse []
        rw [List.append_nil, cut, List.reverse_append, List.reverse_reverse,
          List.reverse_reverse] at whole
        rw [whole, single]
        cases blank : Line.isBlank ⟨text, []⟩ with
        | true =>
            have nothing : bodies (pieces [] []) = [] :=
              bodies_blank Sexpr.blank_nil
            rw [bodies_pieces_blank blank, nothing, List.append_nil,
              bodies_append_blank (blank_of_isBlank blank)]
        | false =>
            rw [bodies_pieces_visible blank Sexpr.blank_nil]
            simp [pieces, joinLines]
      · have positive := breaks.length_pos
        rw [List.length_append, List.length_append] at size
        -- A blank line at the front is counted, so the chunk must be blank.
        have blankChunk : Line.isBlank ⟨content, ending⟩ = true →
            Blank chunk := by
          intro blank
          rcases parted with blankChunk | none
          · exact blankChunk
          · rw [blankLength_blank blank breaks] at none
            omega
        rw [parts, List.append_assoc, cut_content unbroken, cut_ending breaks]
        split
        next none =>
          have chunks : ending.reverse ++ (content.reverse ++ chunk.reverse) =
              (chunk ++ content ++ ending).reverse := by
            simp
          rw [chunks, induction rest.length (by omega) rest _ (.inr none) rfl]
          cases blank : Line.isBlank ⟨content, ending⟩ with
          | true =>
              have lead : Blank (chunk ++ content ++ ending) :=
                ((blankChunk blank).append (blank_of_isBlank blank)).append
                  breaks.blank
              rw [bodies_pieces_lead lead, bodies_pieces_blank blank,
                bodies_blank (blankChunk blank), List.nil_append]
          | false => rw [bodies_pieces_visible blank breaks.blank]
        next some =>
          have later := induction (rest.drop (blankLength 0 0 rest)).length
            (by rw [List.length_drop]; omega) _ [] (.inl Sexpr.blank_nil) rfl
          rw [List.reverse_nil, bodies_pieces_drop] at later
          rw [bodies_cons, later, List.reverse_append, List.reverse_reverse,
            List.reverse_reverse]
          cases blank : Line.isBlank ⟨content, ending⟩ with
          | true =>
              rw [bodies_pieces_blank blank,
                bodies_append_blank (blank_of_isBlank blank)]
          | false =>
              rw [bodies_pieces_visible blank breaks.blank,
                bodies_pieces_parted some (chunk ++ content ++ ending),
                bodies_append_blank breaks.blank]

/-! ## Texts without blank lines -/

theorem exists_isBlank_of_reachesBreak {text : List Char}
    (reaches : reachesBreak text = true) :
    ∃ line ∈ lines text, line.isBlank = true := by
  have gaps : ∀ {content after : List Char},
      (∀ c ∈ content, isBreak c = false) →
      reachesBreak (content ++ after) = true → content.all isGap = true ∧
        reachesBreak after = true := by
    intro content after unbroken reaches
    induction content with
    | nil => exact ⟨rfl, reaches⟩
    | cons c content induction =>
        obtain ⟨noBreak, unbroken⟩ := List.forall_mem_cons.mp unbroken
        simp only [List.cons_append, reachesBreak, noBreak, Bool.false_or,
          Bool.and_eq_true] at reaches
        obtain ⟨all, later⟩ := induction unbroken reaches.2
        exact ⟨by simp [reaches.1, all], later⟩
  rcases lines_cases text with
    ⟨unbroken, _⟩ | ⟨content, ending, rest, rfl, unbroken, _, parts⟩
  · rw [← List.append_nil text] at reaches
    cases (gaps unbroken reaches).2
  · rw [List.append_assoc] at reaches
    rw [parts]
    exact ⟨_, List.mem_cons_self, (gaps unbroken reaches).1⟩

theorem reachesBreak_of_opensBlankLine {c : Char} {rest : List Char}
    (opens : opensBlankLine (c :: rest) = true) : reachesBreak rest = true :=
  (Bool.and_eq_true_iff.mp opens).2

theorem exists_isBlank_of_hasBlankLine {text : List Char}
    (blankLine : hasBlankLine text = true) :
    ∃ line ∈ (lines text).tail, line.isBlank = true := by
  -- Behind a line break, the blank line may be the very next one.
  have behind : ∀ {rest : List Char},
      (hasBlankLine rest = true →
        ∃ line ∈ (lines rest).tail, line.isBlank = true) →
      reachesBreak rest = true ∨ hasBlankLine rest = true →
      ∃ line ∈ lines rest, line.isBlank = true := by
    intro rest induction later
    rcases later with reaches | blankLine
    · exact exists_isBlank_of_reachesBreak reaches
    · obtain ⟨line, member, blank⟩ := induction blankLine
      exact ⟨line, List.mem_of_mem_tail member, blank⟩
  fun_induction lines text with
  | case1 => cases blankLine
  | case2 rest induction =>
      refine behind induction ?_
      simpa [hasBlankLine_cons, opensBlankLine, isBreak] using blankLine
  | case3 c rest alone breaks induction =>
      rw [hasBlankLine_cons, Bool.or_eq_true] at blankLine
      exact behind induction (blankLine.imp_left reachesBreak_of_opensBlankLine)
  | case4 c rest _ _ none => exact absurd none (lines_ne_nil rest)
  | case5 c rest alone noBreak first others parts induction =>
      have noOpen : opensBlankLine (c :: rest) = false := by
        simp [opensBlankLine, noBreak]
      rw [hasBlankLine_cons, noOpen, Bool.false_or] at blankLine
      simpa [parts] using induction blankLine

/-- The formulas of a batch are what the pattern of separators leaves of it,
and also the runs of lines that are not blank.  Formulas without blank lines
are found again between empty lines. -/
theorem formulas_are_paragraphs :
    (∃ pattern, Pattern.compile separatorText.toList = .ok pattern ∧
      ∀ text : String, split text =
        (bodies (pattern.pieces text.toList)).map String.ofList) ∧
    (∀ text : String, split text =
      (bodies ((paragraphs (lines text.toList)).map joinLines)).map
        String.ofList) ∧
    ∀ texts : List String,
      (∀ formula ∈ texts, formula ≠ "" ∧ Text.strip formula = formula ∧
        ∀ line ∈ lines formula.toList, line.isBlank = false) →
      split ("\n\n".intercalate texts) = texts := by
  refine ⟨⟨separators, compile_separatorText, fun text => ?_⟩, fun text => ?_,
    fun texts each => ?_⟩
  · rw [pieces_separators]
    rfl
  · rw [bodies_paragraphs, ← bodies_cut_eq _ _ (.inl Sexpr.blank_nil)]
    rfl
  · have visible : ∀ formula ∈ texts, ¬Blank formula.toList := by
      intro formula member blank
      obtain ⟨nonempty, stripped, _⟩ := each formula member
      rw [← stripChars_eq_nil_iff, ← toList_strip, stripped] at blank
      exact nonempty (String.toList_eq_nil_iff.mp blank)
    have whole : ∀ formula ∈ texts,
        hasBlankLine (Text.strip formula).toList = false := by
      intro formula member
      obtain ⟨_, stripped, unbroken⟩ := each formula member
      rw [stripped, Bool.eq_false_iff]
      intro blankLine
      obtain ⟨line, inside, blank⟩ := exists_isBlank_of_hasBlankLine blankLine
      rw [unbroken line (List.mem_of_mem_tail inside)] at blank
      cases blank
    rw [(split_joined_iff visible).mpr whole]
    exact (List.map_congr_left fun formula member =>
      (each formula member).2.1).trans (List.map_id texts)

/-- Line breaks of all kinds inside formulas, and a line of white space that
is not blank. -/
theorem formulas_are_paragraphs_mixed :
    split "\r\n a\r \t\rb\n\x0b\nc\n\n" = ["a", "b\n\x0b\nc"] ∧
    (∀ formula ∈ ["a\r\n\tb", "c\r d", "e\n\x0b\nf"],
      formula ≠ "" ∧ Text.strip formula = formula ∧
        ∀ line ∈ lines formula.toList, line.isBlank = false) ∧
    split "a\r\n\tb\n\nc\r d\n\ne\n\x0b\nf" =
      ["a\r\n\tb", "c\r d", "e\n\x0b\nf"] := by
  have each : ∀ formula ∈ ["a\r\n\tb", "c\r d", "e\n\x0b\nf"],
      formula ≠ "" ∧ Text.strip formula = formula ∧
        ∀ line ∈ lines formula.toList, line.isBlank = false := by
    decide +kernel
  refine ⟨?_, each, formulas_are_paragraphs.2.2 _ each⟩
  rw [formulas_are_paragraphs.2.1]
  decide +kernel

end FormulaEdit.Batch
