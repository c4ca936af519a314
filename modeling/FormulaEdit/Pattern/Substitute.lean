import FormulaEdit.Pattern.Matcher
import FormulaEdit.Pattern.Template

/-!
# Substitution

Matches are replaced from left to right without overlap.  An empty match
counts, but not directly behind another empty match at the same place.
-/

namespace FormulaEdit.Pattern

/-- A part of a text. -/
def slice (text : Array Char) (start stop : Nat) : List Char :=
  (text.extract start stop).toList

/-- The text that a piece of a template stands for in a match; a group that
took no part gives nothing. -/
def TemplatePart.expand (text : Array Char) (captures : Captures) : TemplatePart → List Char
  | .char value => [value]
  | .group index =>
      match captures.get index with
      | some (start, stop) => slice text start stop
      | none => []

/-- The replacement of a match. -/
def expand (template : List TemplatePart) (text : Array Char) (captures : Captures) : List Char :=
  template.flatMap (·.expand text captures)

namespace Compiled

/-- Replace matches from a place on; `limit` is the number of replacements
still allowed, if there is one. -/
def replaceFrom (pattern : Compiled) (template : List TemplatePart) (text : Array Char) :
    (fuel : Nat) → (limit : Option Nat) → (advance : Bool) → (start : Nat) → List Char
  | 0, _, _, start => slice text start text.size
  | fuel + 1, limit, advance, start =>
      if limit = some 0 then slice text start text.size
      else
        match pattern.search text (text.size + 1 - start) advance start with
        | none => slice text start text.size
        | some (first, found) =>
            slice text start first ++ expand template text found.captures ++
              pattern.replaceFrom template text fuel (limit.map (· - 1)) (found.stop == first)
                found.stop

/-- Replace the first `count` matches in a text, or all of them if `count` is
zero. -/
def replace (pattern : Compiled) (template : List TemplatePart) (count : Nat)
    (text : List Char) : List Char :=
  let chars := text.toArray
  pattern.replaceFrom template chars (2 * chars.size + 3)
    (if count = 0 then none else some count) false 0

end Compiled

end FormulaEdit.Pattern
