import FormulaEdit.Arena.Build
import FormulaEdit.Arena.Cursor
import FormulaEdit.Condition.Generalize
import FormulaEdit.Rule
import FormulaEdit.Settings
import FormulaEdit.Stack

/-!
# Editing sessions

An edit applies one rule at a cursor.  When something changed, the edit is
recorded with a condition that lets it be repeated elsewhere.
-/

namespace FormulaEdit

/-- An edit of an arena and its record; an edit without a change has none. -/
structure Edit where
  outcome : Outcome
  record : Option Record

namespace Edit

/-- Apply a rule to a node without a condition and generalise the edit from the
arena before it. -/
def apply (name : Json) (arena : Arena) (focus : Node) (params : Json.Members) :
    Result Edit := do
  let action ← Action.ofJson name
  let outcome ← action.run arena focus.id params .always
  if outcome.changed then
    let condition ← Condition.generalize action arena focus
    return {
      outcome := outcome
      record := some { action := action, params := params, condition := condition } }
  else return { outcome := outcome, record := none }

end Edit

/-- What an edit of a text came to. -/
inductive Status where
  | applied
  | unchanged
  | noFocus
deriving DecidableEq, Repr

/-- The name of a status. -/
def Status.name : Status → String
  | .applied => "applied"
  | .unchanged => "unchanged"
  | .noFocus => "no_focus"

/-- A text after an edit, and what happened. -/
structure EditResult where
  status : Status
  text : String
  focus : Option Int := none
  record : Option Record := none

/-- The records of the edits of one document. -/
structure Session where
  stack : Stack := {}
deriving Inhabited

namespace Session

/-- An edit of a text, before it is recorded: nothing to do, or the edited
arena with its record. -/
inductive Proposal where
  | idle (result : EditResult)
  | edit (arena : Arena) (focus : Int) (record : Record)

/-- Read a text and apply a rule at a cursor. -/
def propose (text : String) (cursor : Position) (action : Json) (params : Json.Members) :
    Result Proposal := do
  let arena ← Arena.ofText text
  match ← arena.findAt cursor with
  | none => return .idle { status := .noFocus, text := text }
  | some focus =>
      let edit ← Edit.apply action arena focus params
      match edit.record with
      | none => return .idle { status := .unchanged, text := text, focus := some focus.id }
      | some record => return .edit edit.outcome.arena focus.id record

/-- Apply a rule at a cursor in a text and record it.  The record is made
before the new text is rendered. -/
def applyAt (session : Session) (settings : Settings) (text : String) (cursor : Position)
    (action : Json) (params : Json.Members) : Session × Result EditResult :=
  match propose text cursor action params with
  | .error failure => (session, .error failure)
  | .ok (.idle result) => (session, .ok result)
  | .ok (.edit arena focus record) =>
      let rendered := arena.render settings.layout
      ({ session with stack := session.stack.push record }, rendered.map fun text =>
        { status := .applied, text := text, focus := some focus, record := some record })

end Session

end FormulaEdit
