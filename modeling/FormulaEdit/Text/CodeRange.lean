/-!
# Sets of characters given by ranges of code points

A character class of a text standard is an increasing list of inclusive
ranges.  Membership stops at the first range that lies beyond the character.
-/

namespace FormulaEdit.Text

/-- An increasing list of disjoint inclusive code point ranges. -/
abbrev CodeRanges := List (Nat × Nat)

/-- Whether a code point lies in one of the ranges. -/
def CodeRanges.has : CodeRanges → Nat → Bool
  | [], _ => false
  | (low, high) :: rest, code =>
      if code < low then false
      else if code ≤ high then true
      else CodeRanges.has rest code

/-- The low end of the range that holds a code point. -/
def CodeRanges.low? : CodeRanges → Nat → Option Nat
  | [], _ => none
  | (low, high) :: rest, code =>
      if code < low then none
      else if code ≤ high then some low
      else CodeRanges.low? rest code

end FormulaEdit.Text
