import FormulaEdit.Proofs.Batch.Splitting
import FormulaEdit.Proofs.Tree.Text

/-!
# Crowded trees

A tree is crowded when its text has a blank line inside: where line breaks of
nested nodes come together with nothing visible between them, or where a node
breaks the line behind a token that ends one already.
-/

namespace FormulaEdit

namespace Batch

open Sexpr (Blank)

/-- Whether only spaces and tabs follow the last line break of a text, which
has one. -/
def endsLine : List Char → Bool
  | [] => false
  | c :: rest => (isBreak c && rest.all isGap) || endsLine rest

/-! ## Texts behind one another -/

theorem isBreak_of_visible {c : Char} (visible : Text.isBlank c = false) :
    isBreak c = false := by
  rw [Bool.eq_false_iff]
  intro breaks
  rw [isBlank_of_isBreak breaks] at visible
  cases visible

theorem isGap_of_visible {c : Char} (visible : Text.isBlank c = false) :
    isGap c = false := by
  rw [Bool.eq_false_iff]
  intro gap
  rw [isBlank_of_isGap gap] at visible
  cases visible

theorem hasBlankLine_gaps_append {gap : List Char}
    (gaps : ∀ c ∈ gap, isGap c = true) (text : List Char) :
    hasBlankLine (gap ++ text) = hasBlankLine text := by
  induction gap with
  | nil => rfl
  | cons c gap induction =>
      obtain ⟨isGap, later⟩ := List.forall_mem_cons.mp gaps
      rw [List.cons_append, hasBlankLine_cons, induction later]
      simp [opensBlankLine, isBreak_of_isGap isGap]

theorem reachesBreak_append_visible {after : List Char}
    (visible : StartsVisible after) (text : List Char) :
    reachesBreak (text ++ after) = reachesBreak text := by
  induction text with
  | nil =>
      cases after with
      | nil => rfl
      | cons c rest =>
          have seen := visible c rfl
          simp [reachesBreak, isBreak_of_visible seen, isGap_of_visible seen]
  | cons c rest induction => simp [reachesBreak, induction]

theorem hasBlankLine_append_visible {after : List Char}
    (visible : StartsVisible after) (text : List Char) :
    hasBlankLine (text ++ after) =
      (hasBlankLine text || hasBlankLine after) := by
  induction text with
  | nil => rfl
  | cons c rest induction =>
      have opens : opensBlankLine (c :: (rest ++ after)) =
          opensBlankLine (c :: rest) := by
        cases rest with
        | nil =>
            have stays := reachesBreak_append_visible visible []
            rw [List.nil_append] at stays ⊢
            simp [opensBlankLine, stays, reachesBreak]
        | cons d rest =>
            simp [opensBlankLine, reachesBreak,
              reachesBreak_append_visible visible rest]
      rw [List.cons_append, hasBlankLine, hasBlankLine, opens, induction,
        Bool.or_assoc]

theorem endsLine_append_visible {after : List Char}
    (visible : StartsVisible after) (nonempty : after ≠ [])
    (text : List Char) : endsLine (text ++ after) = endsLine after := by
  induction text with
  | nil => rfl
  | cons c rest induction =>
      obtain ⟨d, others, rfl⟩ := List.exists_cons_of_ne_nil nonempty
      have noGap := isGap_of_visible (visible d rfl)
      simp [endsLine, induction, noGap]

theorem reachesBreak_append_space (text : List Char) :
    reachesBreak (text ++ [' ']) = reachesBreak text := by
  induction text with
  | nil => rfl
  | cons c rest induction => simp [reachesBreak, induction]

theorem hasBlankLine_append_space (text : List Char) :
    hasBlankLine (text ++ [' ']) = hasBlankLine text := by
  induction text with
  | nil => rfl
  | cons c rest induction =>
      rw [List.cons_append, hasBlankLine, hasBlankLine, induction]
      cases rest with
      | nil => simp [opensBlankLine, reachesBreak, isBreak]
      | cons d rest =>
          simp [opensBlankLine, reachesBreak, reachesBreak_append_space]

theorem reachesBreak_append_break (text after : List Char) :
    reachesBreak (text ++ ' ' :: '\n' :: after) =
      (reachesBreak text || text.all isGap) := by
  induction text with
  | nil => rfl
  | cons c rest induction =>
      rw [List.cons_append, reachesBreak, reachesBreak, induction,
        List.all_cons, Bool.and_or_distrib_left, Bool.or_assoc]

/-- A line break behind a text makes a blank line if the text ends its line
already. -/
theorem hasBlankLine_append_break (text after : List Char) :
    hasBlankLine (text ++ ' ' :: '\n' :: after) =
      (hasBlankLine text || endsLine text || hasBlankLine ('\n' :: after)) := by
  induction text with
  | nil => simp [hasBlankLine, opensBlankLine, endsLine, isBreak]
  | cons c rest induction =>
      have opens : opensBlankLine (c :: (rest ++ ' ' :: '\n' :: after)) =
          (opensBlankLine (c :: rest) || (isBreak c && rest.all isGap)) := by
        cases rest with
        | nil => simp [opensBlankLine, reachesBreak, isBreak, isGap]
        | cons d rest =>
            have reaches := reachesBreak_append_break (d :: rest) after
            rw [List.cons_append] at reaches ⊢
            rw [opensBlankLine, opensBlankLine, reaches]
            by_cases feed : d = '\n'
            · -- A line feed behind a carriage return is no gap.
              have noGap : (d :: rest).all isGap = false := by
                rw [feed]
                rfl
              rw [noGap, Bool.or_false, Bool.and_false, Bool.or_false]
              rfl
            · have other : (some d == some '\n') = false := by simpa using feed
              simp only [List.head?_cons, other, Bool.and_false, Bool.not_false,
                Bool.and_true, Bool.and_or_distrib_left]
      rw [List.cons_append, hasBlankLine_cons, opens, induction,
        hasBlankLine_cons c rest, endsLine]
      ac_rfl

/-- A text of line feeds, each with spaces and tabs behind it. -/
inductive Lead : Nat → List Char → Prop where
  | nil : Lead 0 []
  | cons {count : Nat} {gap rest : List Char}
      (gaps : ∀ c ∈ gap, isGap c = true) (later : Lead count rest) :
      Lead (count + 1) ('\n' :: (gap ++ rest))

namespace Lead

theorem append {first second : Nat} {before after : List Char}
    (one : Lead first before) (other : Lead second after) :
    Lead (first + second) (before ++ after) := by
  induction one with
  | nil => simpa using other
  | @cons count gap rest gaps _ induction =>
      have longer := Lead.cons gaps induction
      rw [Nat.add_right_comm] at longer
      simpa using longer

theorem blank {count : Nat} {text : List Char} (lead : Lead count text) :
    Blank text := by
  induction lead with
  | nil => exact Sexpr.blank_nil
  | @cons count gap rest gaps _ induction =>
      have feed : Blank ['\n'] := by decide
      have blankGap : Blank gap :=
        fun c member => isBlank_of_isGap (gaps c member)
      exact feed.append (blankGap.append induction)

theorem reachesBreak {count : Nat} {text : List Char} (lead : Lead count text)
    {gap : List Char} (gaps : ∀ c ∈ gap, isGap c = true) :
    reachesBreak (gap ++ text) = decide (1 ≤ count) := by
  induction gap with
  | nil =>
      cases lead with
      | nil => rfl
      | cons _ _ => simp [Batch.reachesBreak, isBreak]
  | cons c gap induction =>
      obtain ⟨isGap, later⟩ := List.forall_mem_cons.mp gaps
      simp [Batch.reachesBreak, isGap, isBreak_of_isGap isGap,
        induction later]

theorem hasBlankLine {count : Nat} {text : List Char}
    (lead : Lead count text) :
    hasBlankLine text = decide (2 ≤ count) := by
  induction lead with
  | nil => rfl
  | @cons count gap rest gaps later induction =>
      have opens : opensBlankLine ('\n' :: (gap ++ rest)) =
          decide (1 ≤ count) := by
        simp [opensBlankLine, isBreak, later.reachesBreak gaps]
      rw [hasBlankLine_cons, opens, hasBlankLine_gaps_append gaps, induction,
        ← Bool.decide_or]
      apply decide_eq_decide.mpr
      omega

end Lead

/-- A text with a visible start, whether it ends its line, and whether it has
a blank line. -/
structure Body (ends crowded : Bool) (text : List Char) : Prop where
  nonempty : text ≠ []
  starts : StartsVisible text
  endsLine_eq : endsLine text = ends
  hasBlankLine_eq : hasBlankLine text = crowded
  stripped : hasBlankLine (Text.stripChars text) = crowded

theorem StartsVisible.append {before : List Char} (nonempty : before ≠ [])
    (starts : StartsVisible before) (after : List Char) :
    StartsVisible (before ++ after) := by
  obtain ⟨c, rest, rfl⟩ := List.exists_cons_of_ne_nil nonempty
  exact starts

theorem stripChars_eq_self {text : List Char} (starts : StartsVisible text)
    (ends : EndsVisible text) : Text.stripChars text = text := by
  rw [Text.stripChars, dropWhile_of_startsVisible starts,
    dropWhile_of_startsVisible ends.reverse, List.reverse_reverse]

theorem StartsVisible.exists_tail {text : List Char}
    (starts : StartsVisible text) (nonempty : text ≠ []) :
    ∃ tail, text = Text.stripChars text ++ tail ∧ Blank tail ∧
      Text.stripChars text ≠ [] ∧ EndsVisible (Text.stripChars text) := by
  obtain ⟨c, rest, isCons⟩ := List.exists_cons_of_ne_nil nonempty
  have seen : Text.isBlank c = false := starts c (by rw [isCons]; rfl)
  obtain ⟨lead, tail, whole, blank, _, ends, behind⟩ :=
    exists_around_stripChars text
  have noLead : lead = [] := by
    cases lead with
    | nil => rfl
    | cons d lead =>
        rw [isCons] at whole
        rw [(List.cons.inj whole).1, blank d List.mem_cons_self] at seen
        cases seen
  have notBlank : ¬Blank text := by
    intro all
    rw [all c (by rw [isCons]; exact List.mem_cons_self)] at seen
    cases seen
  rw [noLead, List.nil_append] at whole
  exact ⟨tail, whole, behind, mt stripChars_eq_nil_iff.mp notBlank, ends⟩

theorem EndsVisible.append {text : List Char} (ends : EndsVisible text)
    (nonempty : text ≠ []) (before : List Char) :
    EndsVisible (before ++ text) := by
  intro c member
  apply ends
  rwa [List.getLast?_append_of_ne_nil before nonempty] at member

theorem hasBlankLine_append_lead {count : Nat} {lead : List Char}
    (breaks : Lead count lead) (text : List Char) :
    hasBlankLine (text ++ ' ' :: lead) =
      (hasBlankLine text || decide (2 ≤ count + (endsLine text).toNat)) := by
  cases breaks with
  | nil =>
      rw [hasBlankLine_append_space]
      cases endsLine text <;> simp
  | @cons count gap rest gaps later =>
      have lines := (Lead.cons gaps later).hasBlankLine
      rw [hasBlankLine_append_break, lines, Bool.or_assoc]
      cases endsLine text <;> simp

namespace Body

variable {ends crowded : Bool} {text : List Char}

theorem prepend (body : Body ends crowded text) {before : List Char}
    (nonempty : before ≠ []) (starts : StartsVisible before) :
    Body ends (hasBlankLine before || crowded) (before ++ text) := by
  obtain ⟨tail, whole, behind, left, endsVisible⟩ :=
    body.starts.exists_tail body.nonempty
  have startsLeft : StartsVisible (Text.stripChars text) := by
    have startsWhole := body.starts
    rw [whole] at startsWhole
    obtain ⟨c, rest, isCons⟩ := List.exists_cons_of_ne_nil left
    rw [isCons] at startsWhole ⊢
    exact startsWhole
  have stripped : Text.stripChars (before ++ text) =
      before ++ Text.stripChars text := by
    have startsAll :
        StartsVisible (before ++ Text.stripChars text ++ tail) := by
      rw [List.append_assoc]
      exact starts.append nonempty _
    have same := stripChars_eq Sexpr.blank_nil startsAll
      (endsVisible.append left before) behind
    rwa [List.nil_append, List.append_assoc, ← whole] at same
  constructor
  · simp [nonempty]
  · exact starts.append nonempty text
  · rw [endsLine_append_visible body.starts body.nonempty, body.endsLine_eq]
  · rw [hasBlankLine_append_visible body.starts, body.hasBlankLine_eq]
  · rw [stripped, hasBlankLine_append_visible startsLeft, body.stripped]

theorem append {endsBefore crowdedBefore : Bool} {before lead : List Char}
    (first : Body endsBefore crowdedBefore before) {count : Nat}
    (breaks : Lead count lead) (body : Body ends crowded text) :
    Body ends (crowdedBefore ||
        (decide (2 ≤ count + endsBefore.toNat) || crowded))
      (before ++ ' ' :: (lead ++ text)) := by
  have starts : StartsVisible (before ++ ' ' :: lead) :=
    first.starts.append first.nonempty _
  have whole := body.prepend (by simp) starts
  rw [hasBlankLine_append_lead breaks, first.hasBlankLine_eq,
    first.endsLine_eq, Bool.or_assoc] at whole
  simpa using whole

theorem bracket (body : Body ends crowded text) {count : Nat}
    {lead : List Char} (breaks : Lead count lead) :
    Body false (decide (2 ≤ count) || crowded)
      ('(' :: (lead ++ text ++ [')'])) := by
  have startsClosing : StartsVisible [')'] := by
    intro c member
    cases member
    rfl
  have starts : StartsVisible ('(' :: lead) := by
    intro c member
    cases member
    rfl
  have closed : Body false crowded (text ++ [')']) := by
    have noLine : hasBlankLine (text ++ [')']) = crowded := by
      rw [hasBlankLine_append_visible startsClosing, body.hasBlankLine_eq]
      exact Bool.or_false crowded
    have endsClosing : EndsVisible (text ++ [')']) := by
      intro c member
      rw [List.getLast?_concat] at member
      cases member
      rfl
    have startsText := body.starts.append body.nonempty [')']
    constructor
    · simp
    · exact startsText
    · rw [endsLine_append_visible startsClosing (by simp)]
      rfl
    · exact noLine
    · rw [stripChars_eq_self startsText endsClosing, noLine]
  have whole := closed.prepend (List.cons_ne_nil _ _) starts
  have opens : hasBlankLine ('(' :: lead) = decide (2 ≤ count) :=
    breaks.hasBlankLine
  rw [opens] at whole
  simpa using whole

end Body

end Batch

/-! ## Where line breaks come together -/

open Sexpr (Blank)

namespace Label

/-- Whether a node with some operands is shown between brackets. -/
def showsBrackets (label : Label) (top : Bool) (count : Nat) : Bool :=
  label.bracketed && (top || count != 1 || label.token != Node.listMarker) &&
    count != 0

/-- Whether what a node shows in front of its operands ends its line; nothing
if it shows its operands only. -/
def front (label : Label) (top : Bool) (count : Nat) : Option Bool :=
  if label.token = Node.listMarker then
    if label.showsBrackets top count then some false else none
  else some (Batch.endsLine label.token.toList)

end Label

namespace Tree

mutual

/-- The number of line breaks in front of what a tree shows first. -/
def leads (top : Bool) : Tree → Nat
  | .node label operands =>
      label.breaksLine.toNat +
        if label.front top operands.length = none then leadsFirst operands
        else 0

/-- The number of line breaks in front of the first of some operands. -/
def leadsFirst : List Tree → Nat
  | [] => 0
  | tree :: _ => tree.leads false

end

mutual

/-- Whether the text of a tree ends its line. -/
def endsLine (top : Bool) : Tree → Bool
  | .node label operands =>
      !label.showsBrackets top operands.length &&
        endsLineBehind (Batch.endsLine label.token.toList) operands

/-- Whether the last of some operands ends its line, or what stands before
them if there are none. -/
def endsLineBehind (before : Bool) : List Tree → Bool
  | [] => before
  | tree :: trees => endsLineBehind (tree.endsLine false) trees

end

mutual

/-- Whether the text of a tree has a blank line behind what it shows first. -/
def crowded (top : Bool) : Tree → Bool
  | .node label operands =>
      crowdedBehind (label.front top operands.length) operands

/-- Whether the texts of some operands have a blank line behind what stands
before them, if anything does. -/
def crowdedBehind (before : Option Bool) : List Tree → Bool
  | [] => false
  | tree :: trees =>
      before.any (fun ends => 2 ≤ tree.leads false + ends.toNat) ||
        tree.crowded false ||
        crowdedBehind (some (tree.endsLine false)) trees

end

end Tree

/-! ## The text of a tree -/

namespace Batch

theorem toList_joined (first : String) (others : List String) :
    (" ".intercalate (first :: others)).toList =
      first.toList ++ others.flatMap fun text => ' ' :: text.toList := by
  induction others generalizing first with
  | nil => simp
  | cons next others induction =>
      rw [String.intercalate_cons_cons, String.toList_append,
        String.toList_append, induction]
      simp

/-- A text with line breaks in front of a body. -/
def Laid (count : Nat) (ends crowded : Bool) (text : List Char) : Prop :=
  ∃ lead body, text = lead ++ body ∧ Lead count lead ∧
    Body ends crowded body

/-- Line breaks in front of a text are cut off with the white space at its
ends. -/
theorem Laid.hasBlankLine {count : Nat} {ends crowded : Bool}
    {text : List Char} (laid : Laid count ends crowded text) :
    hasBlankLine (Text.stripChars text) = crowded := by
  obtain ⟨lead, body, rfl, breaks, whole⟩ := laid
  rw [stripChars_blank_append breaks.blank, whole.stripped]

theorem Body.laid {ends crowded : Bool} {text : List Char}
    (body : Body ends crowded text) : Laid 0 ends crowded text :=
  ⟨[], text, (List.nil_append text).symm, .nil, body⟩

/-- A text that is laid out as a tree says. -/
def LaidAs (top : Bool) (tree : Tree) (text : String) : Prop :=
  Laid (tree.leads top) (tree.endsLine top) (tree.crowded top) text.toList

theorem Body.behind {ends crowded : Bool} {body : List Char}
    (first : Body ends crowded body) {operands : List Tree}
    {texts : List String} (each : List.Forall₂ (LaidAs false) operands texts) :
    Body (Tree.endsLineBehind ends operands)
      (crowded || Tree.crowdedBehind (some ends) operands)
      (body ++ texts.flatMap fun text => ' ' :: text.toList) := by
  induction each generalizing ends crowded body with
  | nil => simpa [Tree.endsLineBehind, Tree.crowdedBehind] using first
  | @cons operand text operands texts lays _ induction =>
      obtain ⟨lead, next, split, breaks, shown⟩ := lays
      have longer := induction (first.append breaks shown)
      rw [Tree.endsLineBehind, Tree.crowdedBehind, List.flatMap_cons, split]
      simpa [Bool.or_assoc] using longer

end Batch

namespace Label

/-- A token that is shown: it starts with a visible character and has no blank
line. -/
structure Shown (label : Label) : Prop where
  nonempty : label.token.toList ≠ []
  starts : Batch.StartsVisible label.token.toList
  whole : Batch.hasBlankLine label.token.toList = false

theorem Shown.body {label : Label} (shown : label.Shown) :
    Batch.Body (Batch.endsLine label.token.toList) false
      label.token.toList := by
  refine ⟨shown.nonempty, shown.starts, rfl, shown.whole, ?_⟩
  exact Batch.whole_of_part (Batch.stripChars_part _) shown.whole

theorem endsLine_of_isOperator {token : String}
    (operator : Node.isOperator token = true) :
    Batch.endsLine token.toList = false := by
  have each : ∀ token ∈ Node.operators,
      Batch.endsLine token.toList = false := by decide
  exact each token (List.contains_iff_mem.mp operator)

theorem toList_bracket (text : String) :
    (Layout.bracket text).toList = '(' :: (text.toList ++ [')']) := by
  simp [Layout.bracket]

theorem lead_breaks {label : Label} {layout : Layout}
    (gaps : label.breaksLine = true →
      ∀ c ∈ layout.indent.toList, Batch.isGap c = true) (depth : Nat) :
    Batch.Lead label.breaksLine.toNat (label.lead layout depth).toList := by
  unfold lead
  cases breaks : label.breaksLine with
  | false => exact .nil
  | true =>
      have indented : ∀ c ∈ (List.replicate depth layout.indent).flatMap
          String.toList, Batch.isGap c = true := by
        intro c member
        simp only [List.mem_flatMap, List.mem_replicate] at member
        obtain ⟨_, ⟨_, rfl⟩, inside⟩ := member
        exact gaps breaks c inside
      have line := Batch.Lead.cons indented .nil
      rw [if_pos rfl, String.toList_append, String.toList_join]
      simpa using line

theorem showsBrackets_eq (label : Label) (top : Bool) (count : Nat) :
    label.showsBrackets top (count + 1) = (label.bracketed &&
      ((if label.token = Node.listMarker then count + 1 else count + 2) != 1 ||
        top)) := by
  unfold showsBrackets
  split
  next marker => simp [marker, Bool.or_comm]
  next other => simp [other]

theorem bareText_cons (label : Label) (top : Bool) (first : String)
    (others : List String) :
    label.bareText top (first :: others) =
      let text := " ".intercalate
        (if label.token = Node.listMarker then first :: others
          else label.token :: first :: others)
      if label.showsBrackets top (others.length + 1) then Layout.bracket text
      else text := by
  rw [showsBrackets_eq]
  unfold bareText
  split
  next empty => cases empty
  next =>
    by_cases marker : label.token = Node.listMarker
    · simp [marker]
    · simp [marker]

theorem bareText_visible {label : Label} (shown : label.Shown)
    {texts : List String} (top : Bool)
    (each : ∀ text ∈ texts, ¬Blank text.toList) :
    ¬Blank (label.bareText top texts).toList := by
  have bracketed : ∀ text, ¬Blank (Layout.bracket text).toList := by
    intro text blank
    rw [toList_bracket] at blank
    exact absurd (blank '(' List.mem_cons_self) (by decide)
  have token : ¬Blank label.token.toList := by
    intro blank
    obtain ⟨c, rest, isCons⟩ := List.exists_cons_of_ne_nil shown.nonempty
    have seen := shown.starts c (by rw [isCons]; rfl)
    rw [blank c (by rw [isCons]; exact List.mem_cons_self)] at seen
    cases seen
  have joined : ∀ first others, ¬Blank first.toList →
      ¬Blank (" ".intercalate (first :: others)).toList := by
    intro first others visible blank
    apply visible
    intro c member
    apply blank
    rw [Batch.toList_joined]
    exact List.mem_append_left _ member
  cases texts with
  | nil =>
      unfold bareText
      simp only [List.isEmpty_nil, if_true]
      split
      · exact bracketed label.token
      · exact token
  | cons first others =>
      rw [bareText_cons]
      simp only
      split
      · exact bracketed _
      · split
        · exact joined first others (each first List.mem_cons_self)
        · exact joined label.token (first :: others) token

theorem bareText_laid {label : Label} (shown : label.Shown)
    {operands : List Tree} {texts : List String} (top : Bool)
    (each : List.Forall₂ (Batch.LaidAs false) operands texts) :
    Batch.Laid
      (if label.front top operands.length = none then
        Tree.leadsFirst operands else 0)
      ((Tree.node label operands).endsLine top)
      ((Tree.node label operands).crowded top)
      (label.bareText top texts).toList := by
  cases each with
  | nil =>
      have bare : Batch.Body (Batch.endsLine label.token.toList) false
          (label.bareText top []).toList := by
        unfold bareText
        simp only [List.isEmpty_nil, if_true]
        split
        next operator =>
          simp only [Bool.and_eq_true] at operator
          rw [endsLine_of_isOperator operator.2, toList_bracket]
          exact shown.body.bracket .nil
        next => exact shown.body
      simpa [Tree.leadsFirst, Tree.endsLine, Tree.endsLineBehind, showsBrackets,
        Tree.crowded, Tree.crowdedBehind] using bare.laid
  | @cons operand text operands texts first others =>
      rw [bareText_cons, ← others.length_eq]
      simp only [Tree.endsLine, Tree.crowded, List.length_cons]
      by_cases marker : label.token = Node.listMarker
      · obtain ⟨lead, body, split, breaks, whole⟩ := first
        have shownAll := whole.behind others
        rw [if_pos marker]
        cases brackets : label.showsBrackets top (operands.length + 1) with
        | true =>
            have bracketed := shownAll.bracket breaks
            rw [if_pos rfl, toList_bracket, Batch.toList_joined, split]
            simpa [front, marker, brackets, Tree.crowdedBehind,
              Bool.or_assoc] using bracketed.laid
        | false =>
            have laid : Batch.Laid _ _ _ _ := ⟨lead, _, rfl, breaks, shownAll⟩
            rw [if_neg Bool.false_ne_true, Batch.toList_joined, split]
            simpa [front, marker, brackets, Tree.crowdedBehind,
              Tree.leadsFirst, Tree.endsLineBehind] using laid
      · have shownAll := shown.body.behind (.cons first others)
        rw [if_neg marker]
        cases brackets : label.showsBrackets top (operands.length + 1) with
        | true =>
            have bracketed := shownAll.bracket .nil
            rw [if_pos rfl, toList_bracket, Batch.toList_joined]
            simpa [front, marker] using bracketed.laid
        | false =>
            rw [if_neg Bool.false_ne_true, Batch.toList_joined]
            simpa [front, marker] using shownAll.laid

end Label

namespace Tree

/-- A tree is laid out as it says, where lines are indented with spaces and
tabs if at all. -/
theorem text_laidAs {layout : Layout} {tree : Tree}
    (shown : tree.Every fun label _ => label.Shown ∧
      label.id ≠ layout.highlight)
    (gaps : tree.Every fun label _ => label.breaksLine = true →
      ∀ c ∈ layout.indent.toList, Batch.isGap c = true)
    (top : Bool) (depth : Nat) :
    Batch.LaidAs top tree (tree.text layout top depth) := by
  induction tree generalizing top depth with
  | node label operands induction =>
      have each : List.Forall₂ (Batch.LaidAs false) operands
          (texts layout (depth + 1) operands) := by
        rw [texts_eq_map, List.forall₂_map_right_iff, List.forall₂_same]
        intro operand member
        exact induction operand member (shown.operand operand member)
          (gaps.operand operand member) false (depth + 1)
      obtain ⟨token, unmarked⟩ := shown.root
      obtain ⟨lead, body, split, breaks, whole⟩ :=
        Label.bareText_laid token top each
      refine ⟨(label.lead layout depth).toList ++ lead, body, ?_, ?_, whole⟩
      · rw [text, Label.text, if_neg unmarked, String.toList_append, split,
          List.append_assoc]
      · rw [leads]
        exact (Label.lead_breaks gaps.root depth).append breaks

theorem text_visible {layout : Layout} {tree : Tree}
    (shown : tree.Every fun label _ => label.Shown ∧
      label.id ≠ layout.highlight) (top : Bool) (depth : Nat) :
    ¬Blank (tree.text layout top depth).toList := by
  induction tree generalizing top depth with
  | node label operands induction =>
      obtain ⟨token, unmarked⟩ := shown.root
      have each : ∀ text ∈ texts layout (depth + 1) operands,
          ¬Blank text.toList := by
        rw [texts_eq_map, List.forall_mem_map]
        intro operand member
        exact induction operand member (shown.operand operand member) false
          (depth + 1)
      intro blank
      rw [text, Label.text, if_neg unmarked, String.toList_append] at blank
      apply Label.bareText_visible token top each
      intro c member
      exact blank c (List.mem_append_right _ member)

/-- A tree that breaks no line is not crowded. -/
theorem crowded_of_unbroken {tree : Tree}
    (unbroken : tree.Every fun label _ => label.breaksLine = false)
    (top : Bool) : tree.leads top = 0 ∧ tree.crowded top = false := by
  induction tree generalizing top with
  | node label operands induction =>
      have each : ∀ operand ∈ operands, ∀ top,
          operand.leads top = 0 ∧ operand.crowded top = false :=
        fun operand member =>
          induction operand member (unbroken.operand operand member)
      have none : ∀ before : Option Bool,
          crowdedBehind before operands = false := by
        clear induction unbroken
        induction operands with
        | nil => exact fun _ => rfl
        | cons operand operands induction =>
            obtain ⟨here, later⟩ := List.forall_mem_cons.mp each
            intro before
            rw [crowdedBehind, (here false).1, (here false).2,
              induction later]
            cases before with
            | none => rfl
            | some ends => cases ends <;> rfl
      constructor
      · have first : leadsFirst operands = 0 := by
          cases operands with
          | nil => rfl
          | cons operand operands =>
              exact (each operand List.mem_cons_self false).1
        rw [leads, unbroken.root, first]
        simp
      · rw [crowded]
        exact none _

end Tree

end FormulaEdit
