import FormulaEdit.View

/-!
# Graph description text

A view is written in the DOT language, one box or edge a line.  Quotes and
backslashes of labels are escaped.
-/

namespace FormulaEdit.View

/-- One character of a label between quotes. -/
def escapedChar (c : Char) : List Char :=
  if c = '\\' || c = '"' then ['\\', c] else [c]

/-- A label between quotes, without them. -/
def escapedLabel (label : String) : String :=
  String.ofList (label.toList.flatMap escapedChar)

/-- The line of a box. -/
def boxLine (box : Box) : String :=
  s!"  n{box.id} [label=\"" ++ escapedLabel box.label ++ "\"];"

/-- The line of an edge. -/
def edgeLine (edge : Edge) : String :=
  s!"  n{edge.source} -> n{edge.target};"

/-- The lines of a graph. -/
def dotLines (name : String) (view : View) : List String :=
  ["digraph " ++ name ++ " \x7b", "  rankdir=TB;", "  node [shape=box, fontname=\"Menlo\"];"] ++
    view.boxes.map boxLine ++ view.edges.map edgeLine ++ ["\x7d"]

/-- The name of a graph that is given none. -/
def defaultName : String := "formula"

/-- The description of a view. -/
def dot (view : View) (name : String) : String :=
  "\n".intercalate (view.dotLines name)

end FormulaEdit.View
