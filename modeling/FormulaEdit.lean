import FormulaEdit.Arena.Basic
import FormulaEdit.Arena.Build
import FormulaEdit.Arena.Cursor
import FormulaEdit.Arena.Node
import FormulaEdit.Arena.Validity
import FormulaEdit.Batch
import FormulaEdit.Command.Arguments
import FormulaEdit.Command.Request
import FormulaEdit.Command.Run
import FormulaEdit.Condition
import FormulaEdit.Condition.Generalize
import FormulaEdit.Decimal.Binary
import FormulaEdit.Decimal.Notation
import FormulaEdit.Decimal.Shortest
import FormulaEdit.Disk
import FormulaEdit.Disk.Path
import FormulaEdit.Disk.Stack
import FormulaEdit.Failure
import FormulaEdit.Json.Basic
import FormulaEdit.Json.Display
import FormulaEdit.Json.Reader
import FormulaEdit.Json.Writer
import FormulaEdit.Main
import FormulaEdit.Numeral.Integer
import FormulaEdit.Pattern.Basic
import FormulaEdit.Pattern.Cursor
import FormulaEdit.Pattern.Escape
import FormulaEdit.Pattern.Fault
import FormulaEdit.Pattern.Flags
import FormulaEdit.Pattern.Matcher
import FormulaEdit.Pattern.Quote
import FormulaEdit.Pattern.Reader
import FormulaEdit.Pattern.Set
import FormulaEdit.Pattern.Substitute
import FormulaEdit.Pattern.Template
import FormulaEdit.Proofs.Arena.Build
import FormulaEdit.Proofs.Arena.Cursor
import FormulaEdit.Proofs.Arena.Depth
import FormulaEdit.Proofs.Arena.Editing
import FormulaEdit.Proofs.Arena.Filling
import FormulaEdit.Proofs.Arena.Highlighting
import FormulaEdit.Proofs.Arena.LineBreaks
import FormulaEdit.Proofs.Arena.Preorder
import FormulaEdit.Proofs.Arena.Rendering
import FormulaEdit.Proofs.Arena.RootedTree
import FormulaEdit.Proofs.Arena.Slots
import FormulaEdit.Proofs.Arena.Unfolding
import FormulaEdit.Proofs.Arena.Validity
import FormulaEdit.Proofs.Arena.Wiring
import FormulaEdit.Proofs.Batch.BlankLines
import FormulaEdit.Proofs.Batch.Crowding
import FormulaEdit.Proofs.Batch.Lines
import FormulaEdit.Proofs.Batch.Output
import FormulaEdit.Proofs.Batch.Splitting
import FormulaEdit.Proofs.Command.Apply
import FormulaEdit.Proofs.Command.Recording
import FormulaEdit.Proofs.Disk
import FormulaEdit.Proofs.Disk.Stack
import FormulaEdit.Proofs.Json.Leaves
import FormulaEdit.Proofs.Json.Limit
import FormulaEdit.Proofs.Json.RoundTrip
import FormulaEdit.Proofs.Json.Stored
import FormulaEdit.Proofs.Pattern.Matching
import FormulaEdit.Proofs.Pattern.Quoting
import FormulaEdit.Proofs.Pattern.Substitution
import FormulaEdit.Proofs.Replay
import FormulaEdit.Proofs.Replay.Budget
import FormulaEdit.Proofs.Replay.Gathering
import FormulaEdit.Proofs.Replay.Meaning
import FormulaEdit.Proofs.Replay.NormalForm
import FormulaEdit.Proofs.Replay.Plan
import FormulaEdit.Proofs.Replay.Replacing
import FormulaEdit.Proofs.Replay.Settling
import FormulaEdit.Proofs.Replay.Sweep
import FormulaEdit.Proofs.Result
import FormulaEdit.Proofs.RoundTrip
import FormulaEdit.Proofs.Rule.Changes
import FormulaEdit.Proofs.Rule.Cursor
import FormulaEdit.Proofs.Rule.Edits
import FormulaEdit.Proofs.Rule.Exactness
import FormulaEdit.Proofs.Rule.Failures
import FormulaEdit.Proofs.Rule.Flipping
import FormulaEdit.Proofs.Rule.Imply
import FormulaEdit.Proofs.Rule.InPlace
import FormulaEdit.Proofs.Rule.LineBreaks
import FormulaEdit.Proofs.Rule.Literal
import FormulaEdit.Proofs.Rule.Preservation
import FormulaEdit.Proofs.Rule.Rendering
import FormulaEdit.Proofs.Rule.Reorder
import FormulaEdit.Proofs.Rule.Running
import FormulaEdit.Proofs.Rule.Squash
import FormulaEdit.Proofs.Rule.Substitution
import FormulaEdit.Proofs.Rule.Undoing
import FormulaEdit.Proofs.Rule.Visibility
import FormulaEdit.Proofs.Rule.Wiring
import FormulaEdit.Proofs.Rule.Writes
import FormulaEdit.Proofs.Session.Atomicity
import FormulaEdit.Proofs.Session.Records
import FormulaEdit.Proofs.Sexpr.Grammar
import FormulaEdit.Proofs.Sexpr.Nesting
import FormulaEdit.Proofs.Sexpr.Places
import FormulaEdit.Proofs.Sexpr.Reading
import FormulaEdit.Proofs.Sexpr.Scanning
import FormulaEdit.Proofs.Sexpr.Spans
import FormulaEdit.Proofs.Stack
import FormulaEdit.Proofs.Stack.Loading
import FormulaEdit.Proofs.Text.Occurrence
import FormulaEdit.Proofs.Tree
import FormulaEdit.Proofs.Tree.Form
import FormulaEdit.Proofs.Tree.Laminar
import FormulaEdit.Proofs.Tree.Meaning
import FormulaEdit.Proofs.Tree.NormalForm
import FormulaEdit.Proofs.Tree.Rewriting
import FormulaEdit.Proofs.Tree.Text
import FormulaEdit.Proofs.View
import FormulaEdit.Proofs.View.Dot
import FormulaEdit.Render
import FormulaEdit.Replay
import FormulaEdit.Rule
import FormulaEdit.Rule.Action
import FormulaEdit.Rule.Comparison
import FormulaEdit.Rule.Implication
import FormulaEdit.Rule.Layout
import FormulaEdit.Rule.Negation
import FormulaEdit.Rule.Outcome
import FormulaEdit.Rule.Reorder
import FormulaEdit.Rule.Replacement
import FormulaEdit.Session
import FormulaEdit.Settings
import FormulaEdit.Sexpr.Basic
import FormulaEdit.Sexpr.Lexeme
import FormulaEdit.Span
import FormulaEdit.Stack
import FormulaEdit.Text.Blank
import FormulaEdit.Text.Case
import FormulaEdit.Text.CodeRange
import FormulaEdit.Text.Digit
import FormulaEdit.Text.Hex
import FormulaEdit.Text.Identifier
import FormulaEdit.Text.Printable
import FormulaEdit.Text.Quoted
import FormulaEdit.Text.Word
import FormulaEdit.View
import FormulaEdit.View.Dot
