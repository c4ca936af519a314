import FormulaEdit.Pattern.Basic

/-!
# Matching

A match is searched by trying the ways of each part in order, each with
everything that has to come after it.  A repetition that has its least number
of rounds goes on only from a place where it has not stood before, so its
rounds are bounded by what is left of the text.
-/

namespace FormulaEdit.Pattern

/-- The parts of the text that the groups matched last: first index and the
index behind the end. -/
abbrev Captures := List (Option (Nat × Nat))

/-- The end of a match and its groups. -/
structure Found where
  stop : Nat
  captures : Captures
deriving DecidableEq, Repr

/-- What has to come after a part, from a place and with the groups so far. -/
abbrev After := Nat → Captures → Option Found

/-- The match that a part makes on its own. -/
def Found.here : After := fun position captures => some ⟨position, captures⟩

/-- Whether a character stands at a place and belongs to a word. -/
def wordAt (text : Array Char) (ascii : Bool) (index : Nat) : Bool :=
  (text[index]?).any (Category.word.has ascii)

/-- Whether a word starts or ends at a place. -/
def isBoundary (text : Array Char) (ascii : Bool) (position : Nat) : Bool :=
  (0 < position && wordAt text ascii (position - 1)) != wordAt text ascii position

/-- Whether a condition holds at a place. -/
def Anchor.holds (text : Array Char) (position : Nat) : Anchor → Bool
  | .textStart => position == 0
  | .textEnd => position == text.size
  | .lineStart => position == 0 || text[position - 1]? == some '\n'
  | .lineEnd => position == text.size || text[position]? == some '\n'
  | .finalLineEnd =>
      position == text.size || (position + 1 == text.size && text[position]? == some '\n')
  | .boundary ascii => 0 < text.size && isBoundary text ascii position
  | .noBoundary ascii => 0 < text.size && !isBoundary text ascii position

/-- Whether two characters agree. -/
def agree (ignoreCase ascii : Bool) (first second : Char) : Bool :=
  if ignoreCase then lowerIn ascii first.toNat == lowerIn ascii second.toNat
  else first == second

/-- Whether `count` characters from two places on agree. -/
def sameText (text : Array Char) (ignoreCase ascii : Bool) :
    (count first second : Nat) → Bool
  | 0, _, _ => true
  | count + 1, first, second =>
      match text[first]?, text[second]? with
      | some c, some d =>
          agree ignoreCase ascii c d && sameText text ignoreCase ascii count (first + 1) (second + 1)
      | _, _ => false

/-- The part of the text that a group matched. -/
def Captures.get (captures : Captures) (index : Nat) : Option (Nat × Nat) :=
  (captures[index]?).join

/-- Whether a repetition may start another round. -/
def mayRepeat (most : Option Nat) (count : Nat) (last : Option Nat) (position : Nat) : Bool :=
  (most.all fun most => decide (count < most)) && last != some position

/-- Rounds of a repetition, as many as possible first.  `last` is where the
last voluntary round started. -/
def greedily (body : After → After) (least : Nat) (most : Option Nat) (after : After) :
    (fuel count : Nat) → (last : Option Nat) → After
  | 0, _, _ => after
  | fuel + 1, count, last => fun position captures =>
      if count < least then
        body (greedily body least most after fuel (count + 1) last) position captures
      else if mayRepeat most count last position then
        match body (greedily body least most after fuel (count + 1) (some position))
            position captures with
        | some found => some found
        | none => after position captures
      else after position captures

/-- Rounds of a repetition, as few as possible first. -/
def lazily (body : After → After) (least : Nat) (most : Option Nat) (after : After) :
    (fuel count : Nat) → (last : Option Nat) → After
  | 0, _, _ => after
  | fuel + 1, count, last => fun position captures =>
      if count < least then
        body (lazily body least most after fuel (count + 1) last) position captures
      else
        match after position captures with
        | some found => some found
        | none =>
            if mayRepeat most count last position then
              body (lazily body least most after fuel (count + 1) (some position))
                position captures
            else none

/-- Rounds of a repetition that are never given back. -/
def possessively (body : After → After) (least : Nat) (most : Option Nat) (after : After) :
    (fuel count : Nat) → (last : Option Nat) → After
  | 0, _, _ => after
  | fuel + 1, count, last => fun position captures =>
      if count < least || mayRepeat most count last position then
        match body Found.here position captures with
        | some found =>
            possessively body least most after fuel (count + 1) (some position)
              found.stop found.captures
        | none => if count < least then none else after position captures
      else after position captures

/-- Match a pattern and what has to come after it. -/
def Regex.run (text : Array Char) : Regex → After → After
  | .empty, after => after
  | .one set, after => fun position captures =>
      match text[position]? with
      | some c => if set.has c then after (position + 1) captures else none
      | none => none
  | .seq first second, after => first.run text (second.run text after)
  | .alt first second, after => fun position captures =>
      match first.run text after position captures with
      | some found => some found
      | none => second.run text after position captures
  | .grouped body, after => body.run text after
  | .capture index body, after => fun position captures =>
      body.run text (fun stop captures => after stop (captures.set index (some (position, stop))))
        position captures
  | .backref index ignoreCase ascii, after => fun position captures =>
      match captures.get index with
      | some (start, stop) =>
          if sameText text ignoreCase ascii (stop - start) start position then
            after (position + (stop - start)) captures
          else none
      | none => none
  | .anchor place, after => fun position captures =>
      if place.holds text position then after position captures else none
  | .lookAhead negated body, after => fun position captures =>
      match body.run text Found.here position captures with
      | some found => if negated then none else after position found.captures
      | none => if negated then after position captures else none
  | .lookBehind negated width body, after => fun position captures =>
      if position < width then
        if negated then after position captures else none
      else
        match body.run text Found.here (position - width) captures with
        | some found => if negated then none else after position found.captures
        | none => if negated then after position captures else none
  | .atomic body, after => fun position captures =>
      match body.run text Found.here position captures with
      | some found => after found.stop found.captures
      | none => none
  | .repeated least most greed body, after => fun position captures =>
      let fuel := least + (text.size - position) + 3
      match greed with
      | .greedy => greedily (body.run text) least most after fuel 0 none position captures
      | .lazy => lazily (body.run text) least most after fuel 0 none position captures
      | .possessive => possessively (body.run text) least most after fuel 0 none position captures
  | .conditional index present absent, after => fun position captures =>
      if (captures.get index).isSome then present.run text after position captures
      else absent.run text after position captures

namespace Compiled

/-- The first match at a place; it must not be empty if `advance` is set. -/
def matchAt (pattern : Compiled) (text : Array Char) (advance : Bool) (start : Nat) :
    Option Found :=
  pattern.regex.run text
    (fun stop captures =>
      if advance && stop == start then none
      else some ⟨stop, captures.set 0 (some (start, stop))⟩)
    start (List.replicate (pattern.groups + 1) none)

/-- The first match from a place on, with its start.  Only a match at that
very place must not be empty, if `advance` is set. -/
def search (pattern : Compiled) (text : Array Char) :
    (fuel : Nat) → (advance : Bool) → (start : Nat) → Option (Nat × Found)
  | 0, _, _ => none
  | fuel + 1, advance, start =>
      if text.size < start then none
      else
        match pattern.matchAt text advance start with
        | some found => some (start, found)
        | none => pattern.search text fuel false (start + 1)

end Compiled

end FormulaEdit.Pattern
