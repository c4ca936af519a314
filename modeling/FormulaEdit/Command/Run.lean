import FormulaEdit.Batch
import FormulaEdit.Command.Request
import FormulaEdit.Disk.Stack
import FormulaEdit.Session
import FormulaEdit.View.Dot

/-!
# Running commands

A command reads and writes a disk and prints lines.  What it printed and wrote
before a failure stays.  Printing always succeeds.
-/

namespace FormulaEdit.Command

/-- The disk and the lines printed so far, the last one first. -/
structure Console where
  disk : Disk
  printed : List String := []

/-- Why a command stopped early. -/
inductive Stop where
  | failed (failure : Failure)
  | badParam (message : String)

/-- A command at work. -/
abbrev Job := ExceptT Stop (StateM Console)

namespace Job

/-- Print a text and a line end. -/
def print (text : String) : Job Unit :=
  modify fun console => { console with printed := text :: console.printed }

/-- Go on with a result or stop with its failure. -/
def ofResult {α : Type} : Result α → Job α
  | .ok value => return value
  | .error failure => throw (.failed failure)

/-- Read a text file. -/
def readText (path : Path) : Job String := do
  ofResult ((← get).disk.readText path)

/-- Do something with the disk; its state is kept also after a failure. -/
def onDisk (attempt : Disk → Disk × Result Unit) : Job Unit := do
  let console ← get
  let (disk, result) := attempt console.disk
  set { console with disk := disk }
  ofResult result

end Job

open Job

/-- Read the formula in a file. -/
def readFormula (path : Path) : Job Arena := do
  ofResult (Arena.ofText (← readText path))

/-- A text that ends with a line feed. -/
def withLineEnd (text : String) : String :=
  if text.toList.getLast? = some '\n' then text else text ++ "\n"

/-- Write a text to a file, or print it. -/
def emit (text : String) : Option Path → Job Unit
  | none => print text
  | some path => do
      onDisk fun disk => disk.deliver path (withLineEnd text)
      print s!"[+] wrote {path.text}"

/-- The members of a node's description. -/
def nodeMembers (node : Node) : Json.Members := [
    ("id", .int node.id),
    ("token", .str node.token),
    ("parent_id", .int node.parent),
    ("children", .arr (node.children.map .int)),
    ("should_break", .bool node.breaksLine),
    ("should_in_bracket", .bool node.bracketed),
    ("span", .arr [
      .int node.span.first.line, .int node.span.first.offset,
      .int node.span.last.line, .int node.span.last.offset])]

/-- The description of an arena. -/
def arenaJson (arena : Arena) : Json :=
  .obj [
    ("root_id", .int arena.root),
    ("nodes", .arr (arena.slots.toList.map fun node => .obj (nodeMembers node)))]

/-- A number right-aligned in four columns. -/
def alignedId (id : Int) : String :=
  let digits := toString id
  String.ofList (List.replicate (4 - digits.length) ' ') ++ digits

/-- One line of the table of nodes, indented by depth. -/
def nodeLine (arena : Arena) (node : Node) : Result String := do
  let depth ← arena.depth node
  return alignedId node.id ++ " " ++ String.ofList (List.replicate (2 * depth) ' ') ++ node.token

/-- Print the table of nodes. -/
def runParse (path : Path) (json : Bool) : Job Unit := do
  let arena ← readFormula path
  if json then print (arenaJson arena).indented
  else arena.liveNodes.forM fun node => do print (← ofResult (nodeLine arena node))

/-- Print the node under a cursor. -/
def runFind (settings : Settings) (path : Path) (cursor : Position) : Job Unit := do
  let arena ← readFormula path
  match ← ofResult (arena.findAt cursor) with
  | none => print s!"[skip] no node at line {cursor.line}, offset {cursor.offset}"
  | some node =>
      let depth ← ofResult (arena.depth node)
      let text ← ofResult (arena.renderNode settings.layout node)
      print (Json.obj (nodeMembers node ++ [("depth", .int depth), ("text", .str text)])).indented

/-- Render a formula again. -/
def runRender (settings : Settings) (path : Path) (highlight : Int) (out : Option Path) :
    Job Unit := do
  let arena ← readFormula path
  emit (← ofResult (arena.render { settings.layout with highlight := highlight })) out

/-- Describe the view of a formula. -/
def runDot (path : Path) (out : Option Path) : Job Unit := do
  let arena ← readFormula path
  emit (arena.view.dot View.defaultName) out

/-- The value of a parameter: JSON if it can be read as such, else its text.
Texts to be matched with tokens are never read. -/
def paramValue (key value : List Char) : Result Json :=
  let text := String.ofList value
  if key = "source".toList || key = "target".toList then .ok (.str text)
  else
    match Json.read (some Numeral.maxDigits) text with
    | .ok value => .ok value
    | .error (.malformed _) => .ok (.str text)
    | .error (.oversized digits) => .error (.oversized digits)

/-- The parameters of a command. -/
def readParams : Json.Members → List String → Except Stop Json.Members
  | params, [] => .ok params
  | params, raw :: rest =>
      match splitEquals raw.toList with
      | (_, none) => .error (.badParam s!"--param must be KEY=VALUE (got {Text.quoted raw})")
      | ([], some _) =>
          .error (.badParam s!"--param key must be non-empty (got {Text.quoted raw})")
      | (key, some value) =>
          match paramValue key value with
          | .ok value => readParams (params.put (String.ofList key) value) rest
          | .error failure => .error (.failed failure)

/-- The stack that an edit is added to: the one in the file if there is one. -/
def openStack : Option Path → Job Stack
  | none => return {}
  | some path => do
      let disk := (← get).disk
      if disk.has path then ofResult (disk.loadStack path) else return {}

/-- Save a stack and say so. -/
def recordStack (stack : Stack) (path : Path) : Job Unit := do
  onDisk fun disk => disk.saveStack path stack
  print s!"[+] recorded rule #{stack.size - 1} in {path.text}"

/-- The line that tells of an edit, if its integers can be written. -/
def appliedLine (action : Action) (focus : Int) (condition : Condition) : Result String :=
  let limit := some Numeral.maxDigits
  if Numeral.fits limit focus && condition.fits limit then
    .ok s!"[+] applied {action.name} at node {focus} (condition: {condition.text})"
  else .error .unwritable

/-- Apply a rule at a cursor and record it. -/
def runApply (settings : Settings) (path : Path) (cursor : Position) (action : Action)
    (params : List String) (stack out : Option Path) : Job Unit := do
  let session : Session := { stack := ← openStack stack }
  let text ← readText path
  let params ← (readParams [] params : Except Stop Json.Members)
  let (session, result) := session.applyAt settings text cursor (.str action.name) params
  let result ← ofResult result
  match result.status with
  | .noFocus =>
      print s!"[skip] nothing to do: no node at line {cursor.line}, offset {cursor.offset}"
  | .unchanged =>
      let focus := result.focus.getD Node.noParent
      print s!"[skip] nothing to do: {action.name} does not change node {focus}"
  | .applied =>
      let focus := result.focus.getD Node.noParent
      let condition := (result.record.map (·.condition)).getD .always
      print (← ofResult (appliedLine action focus condition))
      match stack with
      | some path => recordStack session.stack path
      | none => pure ()
      emit result.text out

/-- Replay a stack over a batch. -/
def runReplay (settings : Settings) (path stackPath : Path) (maxSteps : Option Int)
    (out : Option Path) : Job Unit := do
  let disk := (← get).disk
  if !disk.has stackPath then throw (.failed (.stack (.missingFile stackPath.text)))
  let stack ← ofResult (disk.loadStack stackPath)
  let text ← readText path
  let rendered ← ofResult (Batch.replay settings stack maxSteps text)
  print s!"[+] replayed {stack.size} rule(s) over {rendered.length} formula(s)"
  emit ("\n\n".intercalate rendered) out

/-- Run a request. -/
def runRequest (settings : Settings) : Request → Job Unit
  | .parse path json => runParse path json
  | .find path cursor => runFind settings path cursor
  | .render path highlight out => runRender settings path highlight out
  | .dot path out => runDot path out
  | .apply path cursor action params stack out =>
      runApply settings path cursor action params stack out
  | .replay path stack maxSteps out => runReplay settings path stack maxSteps out

/-- What a command line came to: the exit status, unless a failure ended the
program, what was printed, and the disk afterwards. -/
structure Report where
  exit : Option Nat
  output : String
  errors : String
  failure : Option Failure := none
  disk : Disk

/-- Printed lines as one text. -/
def printedText (printed : List String) : String :=
  String.join (printed.reverse.map (· ++ "\n"))

/-- The report of a request. -/
def report (settings : Settings) (disk : Disk) (request : Request) : Report :=
  let (result, console) := (runRequest settings request).run { disk := disk }
  let output := printedText console.printed
  match result with
  | .ok () => ⟨some 0, output, "", none, console.disk⟩
  | .error (.badParam message) => ⟨some 1, output, message ++ "\n", none, console.disk⟩
  | .error (.failed failure) =>
      if failure.isReported then
        ⟨some 1, output, s!"[!] {failure.message}\n", none, console.disk⟩
      else ⟨none, output, "", some failure, console.disk⟩

/-- What is printed when help is asked for. -/
def usage : String :=
  let verbs := ",".intercalate (Verb.all.map (·.name))
  s!"usage: \x7b{verbs}\x7d path [options]\n"

/-- Run a command line. -/
def run (settings : Settings) (disk : Disk) (arguments : List String) : Report :=
  match Request.read arguments with
  | .ok request => report settings disk request
  | .error .help => ⟨some 0, usage, "", none, disk⟩
  | .error (.misuse message) => ⟨some 2, "", s!"error: {message}\n", none, disk⟩

end FormulaEdit.Command
