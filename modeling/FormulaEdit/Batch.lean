import FormulaEdit.Arena.Build
import FormulaEdit.Replay
import FormulaEdit.Settings
import FormulaEdit.Text.Blank

/-!
# Batches of formulas

A batch text holds formulas with blank lines between them.  A blank line
consists of spaces and tabs only.
-/

namespace FormulaEdit.Batch

/-- The length of the line break at the front of a text; zero if there is
none. -/
def breakLength : List Char → Nat
  | '\r' :: '\n' :: _ => 2
  | '\r' :: _ => 1
  | '\n' :: _ => 1
  | _ => 0

/-- The length of the blank lines at the front of a text, each with its line
break.  `pending` counts the spaces and tabs of a line whose break is still to
come, `done` the characters of the complete lines. -/
def blankLength : (pending done : Nat) → List Char → Nat
  | pending, done, '\r' :: '\n' :: rest => blankLength 0 (done + pending + 2) rest
  | pending, done, c :: rest =>
      if c = '\r' || c = '\n' then blankLength 0 (done + pending + 1) rest
      else if c = ' ' || c = '\t' then blankLength (pending + 1) done rest
      else done
  | _, done, [] => done

/-- The length of the separator at the front of a text: a line break and the
blank lines behind it. -/
def separatorLength? (text : List Char) : Option Nat :=
  let first := breakLength text
  if first = 0 then none
  else
    match blankLength 0 0 (text.drop first) with
    | 0 => none
    | blank => some (first + blank)

/-- Cut a text at its separators.  `chunk` holds the characters of the chunk
so far, the last one first; `skip` counts the characters of a separator that
are still to be passed over. -/
def cut : (skip : Nat) → (chunk : List Char) → List Char → List (List Char)
  | _, chunk, [] => [chunk.reverse]
  | skip + 1, chunk, _ :: rest => cut skip chunk rest
  | 0, chunk, c :: rest =>
      match separatorLength? (c :: rest) with
      | some length => chunk.reverse :: cut (length - 1) [] rest
      | none => cut 0 (c :: chunk) rest

/-- The formulas of a batch text, without the white space around them. -/
def split (text : String) : List String :=
  let chunks := (cut 0 [] text.toList).map Text.stripChars
  (chunks.filter fun chunk => !chunk.isEmpty).map String.ofList

/-- Replay a stack over one formula text. -/
def replayOne (settings : Settings) (stack : Stack) (budget : Int) (text : String) :
    Result String := do
  let arena ← Arena.ofText text
  let arena ← stack.replay budget arena
  arena.render settings.layout

/-- Replay a stack over every formula of a batch text. -/
def replay (settings : Settings) (stack : Stack) (maxSteps : Option Int) (text : String) :
    Result (List String) :=
  (split text).mapM (replayOne settings stack (maxSteps.getD settings.maxSteps))

end FormulaEdit.Batch
