/-!
# Paths

A path is a list of names.  Empty names and names for the same place are
dropped when a path is read; a step upwards is kept, because it depends on
what is on the disk.
-/

namespace FormulaEdit

/-- A path: its names, and whether it starts at the top of the disk. -/
structure Path where
  parts : List String
  absolute : Bool := false
deriving DecidableEq, Repr, Inhabited

namespace Path

/-- Cut a text at its slashes. -/
def splitSlashes : (name : List Char) → List Char → List (List Char)
  | name, [] => [name.reverse]
  | name, c :: rest =>
      if c = '/' then name.reverse :: splitSlashes [] rest else splitSlashes (c :: name) rest

/-- Read a path. -/
def ofText (text : String) : Path :=
  let names := (splitSlashes [] text.toList).map String.ofList
  { parts := names.filter fun name => name != "" && name != "."
    absolute := text.toList.head? == some '/' }

/-- The text of a path; the empty path is a dot. -/
def text (path : Path) : String :=
  let names := "/".intercalate path.parts
  if path.absolute then "/" ++ names
  else if path.parts.isEmpty then "."
  else names

/-- The path of the directory that holds a path. -/
def parent (path : Path) : Path := { path with parts := path.parts.dropLast }

end Path

end FormulaEdit
