import FormulaEdit.Disk.Path
import FormulaEdit.Numeral.Integer
import FormulaEdit.Rule.Action
import FormulaEdit.Span
import FormulaEdit.Text.Quoted

/-!
# Command-line arguments

A command takes one path and its own options, in any order.  A long option may
be shortened to the beginning of its name as long as only one option has it.
Values are checked from left to right; then comes what is missing, and last
what is not understood.
-/

namespace FormulaEdit.Command

/-- What an option sets. -/
inductive Setting where
  | help
  | json
  | line
  | offset
  | highlight
  | out
  | rule
  | param
  | stack
  | maxSteps
deriving DecidableEq, Repr

/-- Whether an option takes a value. -/
def Setting.takesValue : Setting → Bool
  | .help => false
  | .json => false
  | _ => true

/-- An option: its spellings, what it sets, and whether it must be given. -/
structure OptionSpec where
  spellings : List String
  setting : Setting
  required : Bool := false
deriving DecidableEq, Repr

/-- The name of an option in messages. -/
def OptionSpec.name (spec : OptionSpec) : String := "/".intercalate spec.spellings

/-- The commands. -/
inductive Verb where
  | parse
  | find
  | render
  | dot
  | apply
  | replay
deriving DecidableEq, Repr

namespace Verb

/-- The name of a command. -/
def name : Verb → String
  | .parse => "parse"
  | .find => "find"
  | .render => "render"
  | .dot => "dot"
  | .apply => "apply"
  | .replay => "replay"

/-- All commands. -/
def all : List Verb := [.parse, .find, .render, .dot, .apply, .replay]

/-- The command of a name. -/
def ofName? (name : String) : Option Verb := all.find? fun verb => verb.name == name

/-- The option that asks for help. -/
def helpOption : OptionSpec := ⟨["-h", "--help"], .help, false⟩

/-- The options for a cursor. -/
def cursorOptions : List OptionSpec := [⟨["--line"], .line, true⟩, ⟨["--offset"], .offset, true⟩]

/-- The options of a command. -/
def options : Verb → List OptionSpec
  | .parse => [helpOption, ⟨["--json"], .json, false⟩]
  | .find => helpOption :: cursorOptions
  | .render => [helpOption, ⟨["--highlight"], .highlight, false⟩, ⟨["--out"], .out, false⟩]
  | .dot => [helpOption, ⟨["-o", "--out"], .out, false⟩]
  | .apply =>
      helpOption :: cursorOptions ++
        [⟨["--rule"], .rule, true⟩, ⟨["--param"], .param, false⟩, ⟨["--stack"], .stack, false⟩,
          ⟨["--out"], .out, false⟩]
  | .replay =>
      [helpOption, ⟨["--stack"], .stack, true⟩, ⟨["--max-steps"], .maxSteps, false⟩,
        ⟨["--out"], .out, false⟩]

end Verb

/-- Why there is no command to run. -/
inductive Refusal where
  | help
  | misuse (message : String)
deriving DecidableEq, Repr

/-- The values of the options and the path of a command. -/
structure Values where
  path : Option Path := none
  json : Bool := false
  line : Option Int := none
  offset : Option Int := none
  highlight : Option Int := none
  out : Option Path := none
  rule : Option Action := none
  params : List String := []
  stack : Option Path := none
  maxSteps : Option Int := none
deriving Repr

/-- A fault of one option. -/
def misuseOf {α : Type} (name message : String) : Except Refusal α :=
  .error (.misuse s!"argument {name}: {message}")

/-- Choices as a message lists them. -/
def choicesText (choices : List String) : String :=
  ", ".intercalate (choices.map Text.quoted)

/-- A value that is none of the choices. -/
def badChoice {α : Type} (name value : String) (choices : List String) : Except Refusal α :=
  misuseOf name s!"invalid choice: {Text.quoted value} (choose from {choicesText choices})"

/-- An integer as the value of an option. -/
def readInt (name text : String) : Except Refusal Int :=
  match Numeral.readInteger text.toList with
  | some value => .ok value
  | none => misuseOf name s!"invalid int value: {Text.quoted text}"

/-- Give an option its value.  The last value of an option counts, except that
parameters are collected. -/
def Values.store (values : Values) (spec : OptionSpec) (text : String) : Except Refusal Values :=
  match spec.setting with
  | .help => .error .help
  | .json => .ok { values with json := true }
  | .line => do return { values with line := some (← readInt spec.name text) }
  | .offset => do return { values with offset := some (← readInt spec.name text) }
  | .highlight => do return { values with highlight := some (← readInt spec.name text) }
  | .out => .ok { values with out := some (.ofText text) }
  | .rule =>
      match Action.ofName? text with
      | some action => .ok { values with rule := some action }
      | none => badChoice spec.name text (Action.all.map (·.name))
  | .param => .ok { values with params := values.params ++ [text] }
  | .stack => .ok { values with stack := some (.ofText text) }
  | .maxSteps => do return { values with maxSteps := some (← readInt spec.name text) }

/-- Whether an option has been given. -/
def Values.given (values : Values) : Setting → Bool
  | .help => false
  | .json => values.json
  | .line => values.line.isSome
  | .offset => values.offset.isSome
  | .highlight => values.highlight.isSome
  | .out => values.out.isSome
  | .rule => values.rule.isSome
  | .param => !values.params.isEmpty
  | .stack => values.stack.isSome
  | .maxSteps => values.maxSteps.isSome

/-- How an option stands in an argument: which one it is, if it is known, and
a value written in the same argument.  `joined` tells that the value follows
an equals sign. -/
structure OptionUse where
  spec : Option OptionSpec
  value : Option String := none
  joined : Bool := false
  short : Bool := false
deriving Repr

/-- What an argument is. -/
inductive Argument where
  | operand (text : String)
  | separator
  | option (text : String) (use : OptionUse)
deriving Repr

/-- The characters before and behind the first equals sign, if there is one. -/
def splitEquals (text : List Char) : List Char × Option (List Char) :=
  match text.span (· ≠ '=') with
  | (name, _ :: value) => (name, some value)
  | (name, []) => (name, none)

/-- All spellings of options, in order. -/
def spellingsOf (options : List OptionSpec) : List (String × OptionSpec) :=
  options.flatMap fun spec => spec.spellings.map fun spelling => (spelling, spec)

/-- The options that an argument with two hyphens may be short for. -/
def longMatches (options : List OptionSpec) (text : List Char) : List (String × OptionUse) :=
  let (name, value) := splitEquals text
  ((spellingsOf options).filter fun (spelling, _) => name.isPrefixOf spelling.toList).map
    fun (spelling, spec) =>
      (spelling, ⟨some spec, value.map String.ofList, value.isSome, false⟩)

/-- The options that an argument with one hyphen may stand for: a short one
with its value right behind it, or one that starts like the argument. -/
def shortMatches (options : List OptionSpec) (text : List Char) : List (String × OptionUse) :=
  (spellingsOf options).filterMap fun (spelling, spec) =>
    if spelling.toList = text.take 2 then
      some (spelling, ⟨some spec, some (String.ofList (text.drop 2)), false, true⟩)
    else if text.isPrefixOf spelling.toList then some (spelling, ⟨some spec, none, false, false⟩)
    else none

/-- Whether digits with at most one point among them follow a hyphen, with a
digit behind the point. -/
def isNegativeNumber (text : List Char) : Bool :=
  match text with
  | '-' :: rest =>
      let digit := fun c => Text.isDecimal c
      let rest := if rest.getLast? = some '\n' then rest.dropLast else rest
      match rest.span digit with
      | (whole, []) => !whole.isEmpty
      | (_, '.' :: fraction) => !fraction.isEmpty && fraction.all digit
      | _ => false
  | _ => false

/-- The option that an argument is, if it is one. -/
def optionUse? (options : List OptionSpec) (text : String) : Except Refusal (Option OptionUse) :=
  let chars := text.toList
  if chars.head? ≠ some '-' then .ok none
  else
    match (spellingsOf options).lookup text with
    | some spec => .ok (some { spec := some spec })
    | none =>
        if chars.length = 1 then .ok none
        else
          let (name, value) := splitEquals chars
          match value, (spellingsOf options).lookup (String.ofList name) with
          | some value, some spec =>
              .ok (some ⟨some spec, some (String.ofList value), true, name[1]? ≠ some '-'⟩)
          | _, _ =>
              let found := if chars[1]? = some '-' then longMatches options chars
                else shortMatches options chars
              match found with
              | [(_, use)] => .ok (some use)
              | _ :: _ :: _ =>
                  let spellings := ", ".intercalate (found.map (·.1))
                  .error (.misuse s!"ambiguous option: {text} could match {spellings}")
              | [] =>
                  if isNegativeNumber chars || chars.contains ' ' then .ok none
                  else .ok (some { spec := none })

/-- Tell options from other arguments.  Behind two lone hyphens there are no
options. -/
def classify (options : List OptionSpec) : List String → Except Refusal (List Argument)
  | [] => .ok []
  | text :: rest =>
      if text = "--" then .ok (.separator :: rest.map .operand)
      else do
        let argument := match ← optionUse? options text with
          | some use => Argument.option text use
          | none => .operand text
        return argument :: (← classify options rest)

/-- The text of an argument. -/
def Argument.text : Argument → String
  | .operand text => text
  | .separator => "--"
  | .option text _ => text

/-- Whether an option takes the value that is written with it. -/
def useJoined (values : Values) (spec : OptionSpec) (use : OptionUse) (text : String) :
    Except Refusal Values :=
  if spec.setting.takesValue then values.store spec text
  else if use.short && !use.joined && !text.isEmpty && text.toList.head? ≠ some '-' then
    values.store spec ""
  else misuseOf spec.name s!"ignored explicit argument {Text.quoted text}"

/-- Go through the arguments of a command.  The first operand is its path; the
others are not understood and are collected. -/
def collect (values : Values) (extras : List String) :
    List Argument → Except Refusal (Values × List String)
  | [] => .ok (values, extras)
  | .option text use :: rest =>
      match use.spec with
      | none => collect values (extras ++ [text]) rest
      | some spec =>
          match use.value with
          | some value => do collect (← useJoined values spec use value) extras rest
          | none =>
              if spec.setting.takesValue then
                match rest with
                | .operand value :: rest => do collect (← values.store spec value) extras rest
                | _ => misuseOf spec.name "expected one argument"
              else do collect (← values.store spec "") extras rest
  | .separator :: .operand text :: rest =>
      if values.path.isNone then collect { values with path := some (.ofText text) } extras rest
      else collect values (extras ++ ["--", text]) rest
  | .operand text :: .separator :: rest =>
      if values.path.isNone then collect { values with path := some (.ofText text) } extras rest
      else collect values (extras ++ [text, "--"]) rest
  | .operand text :: rest =>
      if values.path.isNone then collect { values with path := some (.ofText text) } extras rest
      else collect values (extras ++ [text]) rest
  | .separator :: rest => collect values (extras ++ ["--"]) rest

/-- The names of what a command needs and has not been given. -/
def missing (verb : Verb) (values : Values) : List String :=
  (if values.path.isNone then ["path"] else []) ++
    (verb.options.filter fun spec => spec.required && !values.given spec.setting).map (·.name)

/-- Read the arguments behind the name of a command. -/
def readValues (verb : Verb) (arguments : List String) :
    Except Refusal (Values × List String) := do
  let arguments ← classify verb.options arguments
  let (values, extras) ← collect {} [] arguments
  match missing verb values with
  | [] => return (values, extras)
  | names =>
      let listed := ", ".intercalate names
      .error (.misuse s!"the following arguments are required: {listed}")

/-- Read the name of a command, the options before it, and its arguments. -/
def readVerb (extras : List String) :
    List Argument → Except Refusal (Verb × Values × List String)
  | .option text use :: rest =>
      match use.spec with
      | none => readVerb (extras ++ [text]) rest
      | some spec =>
          match use.value with
          | some value => do
              let _ ← useJoined {} spec use value
              readVerb extras rest
          | none => .error .help
  | .separator :: _ :: _ => badChoice "command" "--" (Verb.all.map (·.name))
  | .operand text :: rest =>
      match Verb.ofName? text with
      | none => badChoice "command" text (Verb.all.map (·.name))
      | some verb => do
          let (values, more) ← readValues verb (rest.map (·.text))
          return (verb, values, extras ++ more)
  | _ => .error (.misuse "the following arguments are required: command")

/-- Read a whole command line. -/
def readCommand (arguments : List String) : Except Refusal (Verb × Values) := do
  let classified ← classify [Verb.helpOption] arguments
  let (verb, values, extras) ← readVerb [] classified
  match extras with
  | [] => return (verb, values)
  | extras =>
      let listed := " ".intercalate extras
      .error (.misuse s!"unrecognized arguments: {listed}")

end FormulaEdit.Command
