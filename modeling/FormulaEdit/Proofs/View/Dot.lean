import FormulaEdit.Proofs.Json.Leaves
import FormulaEdit.Proofs.Text.Occurrence
import FormulaEdit.Proofs.View
import FormulaEdit.View.Dot

/-!
# The text of a view

The description of a view can be read back from left to right.  A line starts
with the id of a box, which no space is part of, and the character behind the
space tells a box from an edge.  A label may hold quotes, backslashes, line
breaks and whole lines that look like those of a description; it ends at the
first quote that no backslash protects, and this is the quote that was written
behind it.
-/

namespace FormulaEdit

/-- The ends of an edge, which is all that is written of it. -/
def Edge.ends (edge : Edge) : Int × Int := (edge.source, edge.target)

namespace View

/-! ## Labels -/

theorem replaceOccurrences_singleton (c : Char) (target text : List Char) :
    Text.replaceOccurrences [c] target 0 text =
      text.flatMap fun d => if d = c then target else [d] := by
  have unlimited : (none : Option Nat) ≠ some 0 := nofun
  rw [Text.replaceOccurrences, if_pos rfl]
  induction text with
  | nil => rfl
  | cons d text induction =>
      rw [List.flatMap_cons]
      by_cases same : d = c
      · subst same
        have found := Text.replaceChars_source (List.cons_ne_nil d [])
          unlimited target text
        rw [List.singleton_append] at found
        rw [found, Option.map_none, induction, if_pos rfl]
      · have missed : ¬[c] <+: d :: text := by
          rw [List.cons_prefix_cons]
          exact fun front => same front.1.symm
        rw [Text.replaceChars_cons unlimited missed, induction, if_neg same,
          List.singleton_append]

/-- Escaping doubles the backslashes and then puts one in front of each quote.
In the other order the backslashes of the quotes would be doubled too. -/
theorem toList_escapedLabel (label : String) :
    (escapedLabel label).toList =
      Text.replaceOccurrences ['"'] ['\\', '"'] 0
        (Text.replaceOccurrences ['\\'] ['\\', '\\'] 0 label.toList) := by
  rw [replaceOccurrences_singleton, replaceOccurrences_singleton,
    List.flatMap_assoc, escapedLabel, String.toList_ofList]
  refine congrArg (label.toList.flatMap ·) (funext fun c => ?_)
  by_cases slash : c = '\\'
  · simp [escapedChar, slash]
  · by_cases quote : c = '"'
    · simp [escapedChar, quote]
    · simp [escapedChar, slash, quote]

/-- Read a label up to its closing quote, and give what follows.  A backslash
protects the character behind it. -/
def readLabel : List Char → Option (List Char × List Char)
  | [] => none
  | '"' :: rest => some ([], rest)
  | ['\\'] => none
  | '\\' :: c :: rest =>
      (readLabel rest).map fun (label, after) => (c :: label, after)
  | c :: rest => (readLabel rest).map fun (label, after) => (c :: label, after)

theorem readLabel_escaped (label rest : List Char) :
    readLabel (label.flatMap escapedChar ++ '"' :: rest) =
      some (label, rest) := by
  induction label with
  | nil => rfl
  | cons c label induction =>
      rw [List.flatMap_cons, List.append_assoc]
      by_cases special : c = '\\' ∨ c = '"'
      · rw [escapedChar, if_pos (by simpa using special), List.cons_append,
          List.singleton_append, readLabel, induction]
        rfl
      · rw [not_or] at special
        obtain ⟨noSlash, noQuote⟩ := special
        rw [escapedChar, if_neg (by simp [noSlash, noQuote]),
          List.singleton_append, readLabel, induction]
        · rfl
        · exact noQuote
        · intro same
          exact absurd same noSlash
        · intro _ _ same
          exact absurd same noSlash

theorem escaped_append_inj {first second : String} {rest others : List Char}
    (same : first.toList.flatMap escapedChar ++ '"' :: rest =
      second.toList.flatMap escapedChar ++ '"' :: others) :
    first = second ∧ rest = others := by
  have read := congrArg readLabel same
  rw [readLabel_escaped, readLabel_escaped, Option.some.injEq,
    Prod.mk.injEq] at read
  exact ⟨String.toList_inj.mp read.1, read.2⟩

/-! ## Ids -/

theorem notMem_toString {c : Char} (noSign : c ≠ '-')
    (noDigit : Json.isDigit c = false) (value : Int) :
    c ∉ (toString value).toList := by
  intro member
  have digits : ∀ number, c ∉ Nat.toDigits 10 number := by
    intro number digit
    rw [Json.isDigit_of_mem_toDigits digit] at noDigit
    cases noDigit
  rw [Json.toList_toString] at member
  split at member
  · exact digits _ member
  · rcases List.mem_cons.mp member with sign | digit
    · exact noSign sign
    · exact digits _ digit

theorem append_cons_inj {c : Char} {first second rest others : List Char}
    (firstLacks : c ∉ first) (secondLacks : c ∉ second)
    (same : first ++ c :: rest = second ++ c :: others) :
    first = second ∧ rest = others := by
  induction first generalizing second with
  | nil =>
      cases second with
      | nil => exact ⟨rfl, (List.cons.inj same).2⟩
      | cons head second =>
          have head_eq := (List.cons.inj same).1
          exact absurd (head_eq ▸ List.mem_cons_self) secondLacks
  | cons head first induction =>
      cases second with
      | nil =>
          have head_eq := (List.cons.inj same).1
          exact absurd (head_eq ▸ List.mem_cons_self) firstLacks
      | cons next second =>
          rw [List.mem_cons, not_or] at firstLacks secondLacks
          obtain ⟨rfl, tails⟩ := List.cons.inj same
          obtain ⟨rfl, after⟩ := induction firstLacks.2 secondLacks.2 tails
          exact ⟨rfl, after⟩

/-- A written integer is read back, so no other one is written so. -/
theorem toString_inj {first second : Int}
    (same : (toString first).toList = (toString second).toList) :
    first = second := by
  have parted : Json.Parted [] := by simp [Json.Parted]
  have firstRead := @Json.readNumber?_toString [] parted none first rfl
  have secondRead := @Json.readNumber?_toString [] parted none second rfl
  rw [same, secondRead] at firstRead
  simpa using firstRead.symm

theorem toString_append_inj {c : Char} (noSign : c ≠ '-')
    (noDigit : Json.isDigit c = false) {first second : Int}
    {rest others : List Char}
    (same : (toString first).toList ++ c :: rest =
      (toString second).toList ++ c :: others) :
    first = second ∧ rest = others := by
  obtain ⟨texts, after⟩ := append_cons_inj
    (notMem_toString noSign noDigit first)
    (notMem_toString noSign noDigit second) same
  exact ⟨toString_inj texts, after⟩

/-! ## Lines -/

theorem toList_boxLine (box : Box) :
    (boxLine box).toList = "  n".toList ++ ((toString box.id).toList ++
      ' ' :: ("[label=\"".toList ++ (box.label.toList.flatMap escapedChar ++
        '"' :: "];".toList))) := by
  change ("  n" ++ toString box.id ++ " [label=\"" ++
    escapedLabel box.label ++ "\"];").toList = _
  simp [escapedLabel]

theorem toList_edgeLine (edge : Edge) :
    (edgeLine edge).toList = "  n".toList ++ ((toString edge.source).toList ++
      ' ' :: ("-> n".toList ++ ((toString edge.target).toList ++ [';']))) := by
  change ("  n" ++ toString edge.source ++ " -> n" ++
    toString edge.target ++ ";").toList = _
  simp

theorem boxLine_append_inj {first second : Box} {rest others : List Char}
    (same : (boxLine first).toList ++ rest =
      (boxLine second).toList ++ others) : first = second ∧ rest = others := by
  simp only [toList_boxLine, List.append_assoc, List.cons_append] at same
  obtain ⟨ids, same⟩ := toString_append_inj (by decide) (by decide)
    (List.append_cancel_left same)
  obtain ⟨labels, same⟩ := escaped_append_inj (List.append_cancel_left same)
  refine ⟨?_, List.append_cancel_left same⟩
  cases first
  cases second
  simp_all

theorem edgeLine_append_inj {first second : Edge} {rest others : List Char}
    (same : (edgeLine first).toList ++ rest =
      (edgeLine second).toList ++ others) :
    first.ends = second.ends ∧ rest = others := by
  simp only [toList_edgeLine, List.append_assoc, List.cons_append,
    List.nil_append] at same
  obtain ⟨sources, same⟩ := toString_append_inj (by decide) (by decide)
    (List.append_cancel_left same)
  obtain ⟨targets, same⟩ := toString_append_inj (by decide) (by decide)
    (List.append_cancel_left same)
  exact ⟨Prod.ext sources targets, same⟩

theorem boxLine_append_ne_edgeLine {box : Box} {edge : Edge}
    {rest others : List Char} :
    (boxLine box).toList ++ rest ≠ (edgeLine edge).toList ++ others := by
  intro same
  simp only [toList_boxLine, toList_edgeLine, List.append_assoc,
    List.cons_append] at same
  have behind := (toString_append_inj (by decide) (by decide)
    (List.append_cancel_left same)).2
  exact absurd (List.cons.inj behind).1 (by decide)

/-! ## Descriptions -/

/-- The lines in front of the boxes. -/
def dotHeader (name : String) : List String :=
  ["digraph " ++ name ++ " \x7b", "  rankdir=TB;",
    "  node [shape=box, fontname=\"Menlo\"];"]

/-- What a description says of boxes and edges. -/
def graphText (boxes : List Box) (edges : List Edge) : String :=
  "\n".intercalate (boxes.map boxLine ++ edges.map edgeLine ++ ["\x7d"])

theorem dot_eq (name : String) (view : View) :
    view.dot name = "\n".intercalate (dotHeader name) ++ "\n" ++
      graphText view.boxes view.edges := by
  have lines : view.dotLines name = dotHeader name ++
      (view.boxes.map boxLine ++ view.edges.map edgeLine ++ ["\x7d"]) := rfl
  rw [dot, lines, String.intercalate_append_of_ne_nil (by simp [dotHeader])
    (by simp)]
  rfl

theorem graphText_cons_box (box : Box) (boxes : List Box)
    (edges : List Edge) :
    (graphText (box :: boxes) edges).toList =
      (boxLine box).toList ++ '\n' :: (graphText boxes edges).toList := by
  rw [graphText, List.map_cons, List.cons_append, List.cons_append,
    String.intercalate_cons_of_ne_nil (by simp)]
  simp [graphText]

theorem graphText_cons_edge (edge : Edge) (edges : List Edge) :
    (graphText [] (edge :: edges)).toList =
      (edgeLine edge).toList ++ '\n' :: (graphText [] edges).toList := by
  rw [graphText, List.map_nil, List.nil_append, List.map_cons,
    List.cons_append, String.intercalate_cons_of_ne_nil (by simp)]
  simp [graphText]

theorem graphText_nil : (graphText [] []).toList = ['\x7d'] := rfl

theorem brace_ne_line {line : List Char} :
    (graphText [] []).toList ≠ "  n".toList ++ line := by
  intro same
  rw [graphText_nil] at same
  exact absurd (List.cons.inj same).1 (by decide)

theorem graphText_edges_inj {first second : List Edge}
    (same : (graphText [] first).toList = (graphText [] second).toList) :
    first.map Edge.ends = second.map Edge.ends := by
  induction first generalizing second with
  | nil =>
      cases second with
      | nil => rfl
      | cons edge edges =>
          rw [graphText_cons_edge, toList_edgeLine, List.append_assoc] at same
          exact absurd same brace_ne_line
  | cons edge edges induction =>
      cases second with
      | nil =>
          rw [graphText_cons_edge, toList_edgeLine, List.append_assoc] at same
          exact absurd same.symm brace_ne_line
      | cons other others =>
          rw [graphText_cons_edge, graphText_cons_edge] at same
          obtain ⟨here, later⟩ := edgeLine_append_inj same
          rw [List.map_cons, List.map_cons, here,
            induction (List.cons.inj later).2]

theorem graphText_box_ne_edges {box : Box} {boxes : List Box}
    {edges others : List Edge} :
    (graphText [] others).toList ≠ (graphText (box :: boxes) edges).toList := by
  intro same
  rw [graphText_cons_box] at same
  cases others with
  | nil =>
      rw [toList_boxLine, List.append_assoc] at same
      exact brace_ne_line same
  | cons edge others =>
      rw [graphText_cons_edge] at same
      exact boxLine_append_ne_edgeLine same.symm

/-- Boxes and the ends of edges are read back from left to right. -/
theorem graphText_inj {first second : List Box} {edges others : List Edge}
    (same : (graphText first edges).toList =
      (graphText second others).toList) :
    first = second ∧ edges.map Edge.ends = others.map Edge.ends := by
  induction first generalizing second with
  | nil =>
      cases second with
      | nil => exact ⟨rfl, graphText_edges_inj same⟩
      | cons box boxes => exact absurd same graphText_box_ne_edges
  | cons box boxes induction =>
      cases second with
      | nil => exact absurd same.symm graphText_box_ne_edges
      | cons other second =>
          rw [graphText_cons_box, graphText_cons_box] at same
          obtain ⟨rfl, later⟩ := boxLine_append_inj same
          obtain ⟨rfl, links⟩ := induction (List.cons.inj later).2
          exact ⟨rfl, links⟩

/-- The edges of a view are numbered in order, so their ends are enough. -/
theorem ofNodes_inj {nodes others : List Node}
    (boxes : (ofNodes nodes).boxes = (ofNodes others).boxes)
    (links : (ofNodes nodes).edges.map Edge.ends =
      (ofNodes others).edges.map Edge.ends) : ofNodes nodes = ofNodes others := by
  have numbered : ∀ slots : List Node, (ofNodes slots).edges =
      numberEdges 0 ((ofNodes slots).edges.map Edge.ends) := by
    intro slots
    exact congrArg (numberEdges 0) (map_ends_numberEdges 0 _).symm
  have edges : (ofNodes nodes).edges = (ofNodes others).edges := by
    rw [numbered nodes, numbered others, links]
  exact congrArg₂ View.mk boxes edges

/-- The line of a box up to the quote that opens its label. -/
def boxOpening (box : Box) : String :=
  "  n" ++ toString box.id ++ " [label=\""

theorem boxLine_eq (box : Box) : boxLine box =
    boxOpening box ++ (escapedLabel box.label ++ "\"" ++ "];") := by
  have quote : "\"];" = "\"" ++ "];" := rfl
  change boxOpening box ++ escapedLabel box.label ++ "\"];" = _
  rw [quote]
  simp only [String.append_assoc]

theorem intercalate_cut (separator : String) (above below : List String)
    (start rest : String) :
    separator.intercalate (above ++ (start ++ rest) :: below) =
      separator.intercalate (above ++ [start]) ++
        separator.intercalate (rest :: below) := by
  induction above with
  | nil =>
      rw [List.nil_append, List.nil_append, String.intercalate_singleton,
        String.intercalate_cons_append]
  | cons line above induction =>
      rw [List.cons_append, List.cons_append,
        String.intercalate_cons_of_ne_nil (by simp),
        String.intercalate_cons_of_ne_nil (by simp), induction]
      simp only [String.append_assoc]

/-- Two views have the same description only if they are equal, whatever their
labels are.  Inside a description, a label is written by replacing backslashes
first and quotes second; read from its opening quote, it ends at the closing
quote that was written for it and gives the label back. -/
theorem dot_determines_view (name : String) (nodes : List Node) :
    (∀ others : List Node,
      (ofNodes nodes).dot name = (ofNodes others).dot name ↔
        ofNodes nodes = ofNodes others) ∧
    (∀ before box after, (ofNodes nodes).boxes = before ++ box :: after →
      let opened := "\n".intercalate
        (dotHeader name ++ before.map boxLine ++ [boxOpening box])
      let closed := "\n".intercalate
        ("];" :: (after.map boxLine ++
          (ofNodes nodes).edges.map edgeLine ++ ["\x7d"]))
      (ofNodes nodes).dot name =
          opened ++ escapedLabel box.label ++ "\"" ++ closed ∧
        (escapedLabel box.label).toList =
          Text.replaceOccurrences ['"'] ['\\', '"'] 0
            (Text.replaceOccurrences ['\\'] ['\\', '\\'] 0
              box.label.toList) ∧
        readLabel (escapedLabel box.label ++ "\"" ++ closed).toList =
          some (box.label.toList, closed.toList)) := by
  constructor
  · intro others
    constructor
    · intro same
      rw [dot_eq, dot_eq, String.append_right_inj] at same
      obtain ⟨boxes, links⟩ := graphText_inj (congrArg String.toList same)
      exact ofNodes_inj boxes links
    · intro same
      rw [same]
  · intro before box after split opened closed
    refine ⟨?_, toList_escapedLabel box.label, ?_⟩
    · have lines : (ofNodes nodes).dotLines name =
          (dotHeader name ++ before.map boxLine) ++ boxLine box ::
            (after.map boxLine ++ (ofNodes nodes).edges.map edgeLine ++
              ["\x7d"]) := by
        rw [dotLines, split]
        simp [dotHeader]
      rw [dot, lines, boxLine_eq, intercalate_cut,
        String.intercalate_cons_append]
      simp only [opened, closed, String.append_assoc]
    · have characters :
          (escapedLabel box.label ++ "\"" ++ closed).toList =
            box.label.toList.flatMap escapedChar ++ '"' :: closed.toList := by
        simp [escapedLabel]
      rw [characters]
      exact readLabel_escaped _ _

/-- A label that imitates the end of a description and ends in a backslash is
read back, and is not taken for the lines that it imitates. -/
theorem dot_determines_view_imitation :
    let label := "p\"];\n  n0 -> n1;\n\x7d\\"
    let nodes : List Node :=
      [{ id := 0, token := label, children := [1], bracketed := false },
        { id := 1, token := "q", parent := 0, bracketed := false }]
    let others : List Node :=
      [{ id := 0, token := "p", children := [1], bracketed := false },
        { id := 1, token := "q", parent := 0, bracketed := false }]
    let closed := "];\n  n1 [label=\"q\"];\n  n0 -> n1;\n\x7d"
    (ofNodes nodes).boxes = [] ++ ⟨0, label⟩ :: [⟨1, "q"⟩] ∧
      readLabel (escapedLabel label ++ "\"" ++ closed).toList =
        some (label.toList, closed.toList) ∧
      (ofNodes nodes).dot "g" ≠ (ofNodes others).dot "g" := by
  intro label nodes others closed
  have boxes : (ofNodes nodes).boxes = [] ++ ⟨0, label⟩ :: [⟨1, "q"⟩] := by
    decide
  obtain ⟨determined, read⟩ := dot_determines_view "g" nodes
  refine ⟨boxes, (read [] ⟨0, label⟩ [⟨1, "q"⟩] boxes).2.2, ?_⟩
  intro same
  exact absurd ((determined others).mp same) (by decide)

end View

end FormulaEdit
