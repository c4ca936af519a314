import FormulaEdit.Text.Blank
import FormulaEdit.Text.Case
import FormulaEdit.Text.Digit
import FormulaEdit.Text.Word

/-!
# Patterns

A pattern describes a set of texts together with the order in which a search
tries its ways to match.  Options such as ignoring case are resolved when a
pattern is read, so every part carries the sense it is matched in.
-/

namespace FormulaEdit.Pattern

/-- A named class of characters. -/
inductive Category where
  | digit
  | space
  | word
deriving DecidableEq, Repr

/-- Whether a character belongs to a class, among all characters or among the
ASCII ones only. -/
def Category.has (category : Category) (ascii : Bool) (c : Char) : Bool :=
  (!ascii || c.toNat < 128) &&
    match category with
    | .digit => Text.isDecimal c
    | .space => if ascii then [9, 10, 11, 12, 13, 32].contains c.toNat else Text.isBlank c
    | .word => Text.isWord c

/-- One entry of a character set. -/
inductive SetItem where
  | code (value : Nat)
  | range (low high : Nat)
  | category (category : Category) (negated : Bool)
deriving DecidableEq, Repr

/-- A set of characters. -/
structure CharSet where
  items : List SetItem
  negated : Bool := false
  ignoreCase : Bool := false
  ascii : Bool := false
deriving DecidableEq, Repr

/-- The lower-case form of a code point, among the ASCII letters only if asked. -/
def lowerIn (ascii : Bool) (code : Nat) : Nat :=
  if ascii then (if 65 ≤ code && code ≤ 90 then code + 32 else code) else Text.lowerCode code

/-- The code points that a lower-case one agrees with. -/
def variantsIn (ascii : Bool) (lower : Nat) : List Nat :=
  if ascii then [lower] else Text.caseVariants lower

/-- The code points whose lower-case form is the given one. -/
def upperForms (ascii : Bool) (lower : Nat) : List Nat :=
  if ascii then (if 97 ≤ lower && lower ≤ 122 then [lower, lower - 32] else [lower])
  else
    lower :: Text.lowerRuns.filterMap fun (first, last, step, target) =>
      if target ≤ lower && lower - target ≤ last - first && (lower - target) % step == 0 then
        some (first + (lower - target))
      else none

namespace CharSet

/-- Whether an entry holds a character, given by its code point. -/
def itemHas (set : CharSet) (code : Nat) (item : SetItem) : Bool :=
  match item with
  | .category category negated => (category.has set.ascii (Char.ofNat code)) != negated
  | .code value =>
      if set.ignoreCase then (variantsIn set.ascii (lowerIn set.ascii value)).contains code
      else value == code
  | .range low high =>
      if set.ignoreCase then
        (variantsIn set.ascii code).any fun lower =>
          (upperForms set.ascii lower).any fun other => low ≤ other && other ≤ high
      else low ≤ code && code ≤ high

/-- Whether a set holds a character. -/
def has (set : CharSet) (c : Char) : Bool :=
  let code := if set.ignoreCase then lowerIn set.ascii c.toNat else c.toNat
  set.items.any (set.itemHas code) != set.negated

end CharSet

/-- A condition on a place in the text. -/
inductive Anchor where
  | textStart
  | textEnd
  | lineStart
  | lineEnd
  | finalLineEnd
  | boundary (ascii : Bool)
  | noBoundary (ascii : Bool)
deriving DecidableEq, Repr

/-- How a repetition chooses the number of its rounds. -/
inductive Greed where
  | greedy
  | lazy
  | possessive
deriving DecidableEq, Repr

/-- A pattern. -/
inductive Regex where
  | empty
  | one (set : CharSet)
  | seq (first second : Regex)
  | alt (first second : Regex)
  | grouped (body : Regex)
  | capture (index : Nat) (body : Regex)
  | backref (index : Nat) (ignoreCase ascii : Bool)
  | anchor (anchor : Anchor)
  | lookAhead (negated : Bool) (body : Regex)
  | lookBehind (negated : Bool) (width : Nat) (body : Regex)
  | atomic (body : Regex)
  | repeated (least : Nat) (most : Option Nat) (greed : Greed) (body : Regex)
  | conditional (index : Nat) (present absent : Regex)
deriving DecidableEq, Repr, Inhabited

/-- The least and the greatest length of a match; there may be no greatest. -/
structure Width where
  least : Nat
  most : Option Nat
deriving DecidableEq, Repr

namespace Width

/-- The width of nothing. -/
def zero : Width := ⟨0, some 0⟩

/-- The width of one part after another. -/
def add (first second : Width) : Width :=
  ⟨first.least + second.least, do return (← first.most) + (← second.most)⟩

/-- The width of one part or another. -/
def join (first second : Width) : Width :=
  ⟨min first.least second.least, do return max (← first.most) (← second.most)⟩

/-- The width of a repetition. -/
def times (width : Width) (least : Nat) (most : Option Nat) : Width :=
  { least := width.least * least
    most :=
      if width.most = some 0 || most = some 0 then some 0
      else do return (← width.most) * (← most) }

end Width

/-- The width of a pattern, given the widths of the groups it refers to. -/
def Regex.width (groups : Nat → Width) : Regex → Width
  | .empty => .zero
  | .one _ => ⟨1, some 1⟩
  | .seq first second => (first.width groups).add (second.width groups)
  | .alt first second => (first.width groups).join (second.width groups)
  | .grouped body => body.width groups
  | .capture _ body => body.width groups
  | .backref index _ _ => groups index
  | .anchor _ => .zero
  | .lookAhead _ _ => .zero
  | .lookBehind _ _ _ => .zero
  | .atomic body => body.width groups
  | .repeated least most _ body => (body.width groups).times least most
  | .conditional _ present absent => (present.width groups).join (absent.width groups)

/-- A pattern that is ready for matching: the names and the number of its
groups belong to it. -/
structure Compiled where
  regex : Regex
  groups : Nat
  names : List (String × Nat)

end FormulaEdit.Pattern
