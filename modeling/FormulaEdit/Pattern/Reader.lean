import FormulaEdit.Numeral.Integer
import FormulaEdit.Pattern.Flags
import FormulaEdit.Pattern.Set
import FormulaEdit.Text.Identifier

/-!
# Reading patterns

The reader follows the nesting of groups and keeps a table of the groups met
so far.  The first fault from left to right is reported; only then come
references to groups that never appear and look-behinds without a fixed width.
-/

namespace FormulaEdit.Pattern

/-- What the reader knows: where it stands, the options of the whole pattern,
the widths of the closed groups (the whole pattern in the first place), the
names, and what is still to be checked at the end. -/
structure ReaderState where
  cursor : Cursor
  flags : Flags := {}
  widths : List (Option Width) := [none]
  names : List (String × Nat) := []
  outsideLookBehind : Option Nat := none
  references : List (Nat × Nat) := []
  looseLookBehind : Bool := false

/-- A step of the reader. -/
abbrev Reading := StateT ReaderState (Except SyntaxError)

namespace Reading

/-- Stop with a fault some characters in front of the place reached. -/
def fail {α : Type} (fault : Fault) (back : Nat) : Reading α := do
  throw (.at ((← get).cursor.fault fault back))

/-- Run a reader of the cursor. -/
def onCursor {α : Type} (read : Cursor → Except Located (α × Cursor)) : Reading α := do
  let state ← get
  match read state.cursor with
  | .ok (value, cursor) =>
      set { state with cursor := cursor }
      return value
  | .error located => throw (.at located)

/-- The next token. -/
def peek : Reading (List Char) := do
  return (← get).cursor.peek

/-- Pass over the next token. -/
def take : Reading (List Char) :=
  onCursor fun cursor => do return (cursor.peek, ← cursor.advance)

/-- Pass over the next token if it is the given character. -/
def accept (c : Char) : Reading Bool := do
  if (← peek) = [c] then
    let _ ← take
    return true
  else return false

/-- The place reached. -/
def position : Reading Nat := do
  return (← get).cursor.position

/-- The width of a group, if it is closed. -/
def width? (index : Nat) : Reading (Option Width) := do
  return ((← get).widths[index]?).join

/-- Check that a group may be referred to inside the look-behind around it. -/
def checkLookBehind (index : Nat) : Reading Unit := do
  match (← get).outsideLookBehind with
  | none => return ()
  | some outside =>
      if (← width? index).isNone then fail .openGroup 0
      else if outside ≤ index then fail .lookBehindGroup 0

/-- A group that is about to be read: its number, with its name made known. -/
def openGroup (name : Option (List Char)) : Reading Nat := do
  let state ← get
  let index := state.widths.length
  match name with
  | none => set { state with widths := state.widths ++ [none] }
  | some name =>
      let key := String.ofList name
      match state.names.lookup key with
      | some before => fail (.redefinedGroup key index before) (name.length + 1)
      | none =>
          set { state with
            widths := state.widths ++ [none]
            names := state.names ++ [(key, index)] }
  return index

/-- The width of a pattern whose references are all to closed groups. -/
def widthOf (regex : Regex) : Reading Width := do
  let widths := (← get).widths
  return regex.width fun index => (widths[index]?.join).getD .zero

/-- Close a group. -/
def closeGroup (index : Nat) (body : Regex) : Reading Unit := do
  let width ← widthOf body
  modify fun state => { state with widths := state.widths.set index (some width) }

end Reading

open Reading

/-- A sequence of parts, the last one first. -/
def sequence (parts : List Regex) : Regex :=
  parts.foldl (fun after part => if after = .empty then part else .seq part after) .empty

/-- A single character of a pattern. -/
def literal (flags : Flags) (code : Nat) : Regex :=
  .one { items := [.code code], ignoreCase := flags.ignoreCase, ascii := flags.ascii }

/-- Any character, or any but a line feed. -/
def anyChar (flags : Flags) : Regex :=
  .one { items := if flags.dotAll then [] else [.code 10], negated := true }

/-- A reference to a group by its number; `back` is the length of its text. -/
def readReference (flags : Flags) (index back : Nat) : Reading Regex := do
  if index < (← get).widths.length then
    if (← width? index).isNone then fail .openGroup back
    checkLookBehind index
    return .backref index flags.ignoreCase flags.ascii
  else fail (.groupReference index) (back - 1)

/-- An escape that starts with a digit other than zero: three octal digits, or
else the number of a group. -/
def readDigitEscape (flags : Flags) (c : Char) : Reading Regex := do
  match ← peek with
  | [d] =>
      if isAsciiDigit d then
        let _ ← take
        match ← peek with
        | [e] =>
            if isOctal c && isOctal d && isOctal e then
              let _ ← take
              let code := valueIn 8 [c, d, e]
              if 0o377 < code then fail (.octalRange (String.ofList ['\\', c, d, e])) 4
              return literal flags code
            else readReference flags (valueIn 10 [c, d]) 3
        | _ => readReference flags (valueIn 10 [c, d]) 3
      else readReference flags (valueIn 10 [c]) 2
  | _ => readReference flags (valueIn 10 [c]) 2

/-- An escape outside sets; it has been passed over. -/
def readEscape (flags : Flags) (c : Char) : Reading Regex := do
  match anchorEscape? flags.ascii c, categoryEscape? c, controlEscape? c with
  | some anchor, _, _ => return .anchor anchor
  | none, some item, _ => return .one { items := [item], ascii := flags.ascii }
  | none, none, some code => return literal flags code
  | none, none, none =>
      let state ← get
      match readCodeEscape? c state.cursor with
      | some _ =>
          let code ← onCursor fun cursor => (readCodeEscape? c cursor).getD (plainEscape c cursor)
          return literal flags code
      | none =>
          if c = '0' then
            let digits ← onCursor fun cursor => cursor.takeWhile isOctal 2
            return literal flags (valueIn 8 digits)
          else if isAsciiDigit c then readDigitEscape flags c
          else return literal flags (← onCursor (plainEscape c))

/-- The bound on the number of rounds in a repetition. -/
def roundBound : Nat := 4294967295

/-- A number of rounds from its digits. -/
def readRounds (digits : List Char) : Reading Nat := do
  if Numeral.maxDigits < digits.length then throw (.oversized digits.length)
  let rounds := valueIn 10 digits
  if roundBound ≤ rounds then throw .repetitionTooLarge
  return rounds

/-- The limits of a repetition; its first token has been passed over.  A brace
that opens no limits stands for itself. -/
def readLimits (token : Char) : Reading (Option (Nat × Option Nat)) := do
  if token = '?' then return some (0, some 1)
  else if token = '*' then return some (0, none)
  else if token = '+' then return some (1, none)
  else
    let before ← get
    if before.cursor.peek = ['\x7d'] then return none
    let count := before.cursor.rest.length
    let low ← onCursor fun cursor => cursor.takeWhile isAsciiDigit count
    let ranged ← accept ','
    let high ← if ranged then onCursor fun cursor => cursor.takeWhile isAsciiDigit count
      else pure low
    if !(← accept '\x7d') then
      set before
      return none
    let least ← readRounds low
    let most ← if high.isEmpty then pure none else some <$> readRounds high
    if most.any fun most => decide (most < least) then
      throw (.at ⟨.repeatOrder, before.cursor.position⟩)
    return some (least, most)

/-- How a repetition chooses the number of its rounds; by a mark behind it. -/
def readGreed : Reading Greed := do
  if ← accept '?' then return .lazy
  if ← accept '+' then return .possessive
  return .greedy

/-- Repeat the last part; `start` is where the repetition is written. -/
def repeatLast (start least : Nat) (most : Option Nat) (parts : List Regex) :
    Reading (List Regex) := do
  match parts with
  | [] => throw (.at ⟨.nothingToRepeat, start⟩)
  | .anchor _ :: _ => throw (.at ⟨.nothingToRepeat, start⟩)
  | .repeated _ _ _ _ :: _ => throw (.at ⟨.multipleRepeat, start⟩)
  | last :: before =>
      return .repeated least most (← readGreed) last :: before

/-- What the text behind an opening parenthesis makes of a group. -/
inductive GroupKind where
  | capturing (name : Option (List Char))
  | plain (flags : Flags)
  | atomic
  | lookAhead (negated : Bool)
  | lookBehind (negated : Bool)
  | conditional
  | comment
  | reference (regex : Regex)
  | options (letters : List Char)

/-- Read the name of a group up to its terminator. -/
def readName (terminator : Char) : Reading (List Char) := do
  let name ← onCursor (Cursor.takeName terminator)
  if Text.isIdentifier name then return name
  else fail (.groupName (String.ofList name)) (name.length + 1)

/-- The number of a named group. -/
def namedGroup (name : List Char) : Reading Nat := do
  match (← get).names.lookup (String.ofList name) with
  | some index => return index
  | none => fail (.unknownGroup (String.ofList name)) (name.length + 1)

/-- Read the kind of a group that is named or refers to a name. -/
def readNamedKind (flags : Flags) : Reading GroupKind := do
  let token ← take
  match token with
  | [] => fail .unexpectedEnd 0
  | ['<'] => return .capturing (some (← readName '>'))
  | ['='] =>
      let name ← readName ')'
      let index ← namedGroup name
      if (← width? index).isNone then fail .openGroup (name.length + 1)
      checkLookBehind index
      return .reference (.backref index flags.ignoreCase flags.ascii)
  | _ => fail (.unknownExtension (String.ofList ('P' :: token))) (token.length + 2)

/-- Read the kind of a group; its opening parenthesis has been passed over. -/
def readKind (flags : Flags) : Reading GroupKind := do
  if !(← accept '?') then return .capturing none
  let token ← take
  match token with
  | [] => fail .unexpectedEnd 0
  | ['P'] => readNamedKind flags
  | [':'] => return .plain flags
  | ['#'] => return .comment
  | ['='] => return .lookAhead false
  | ['!'] => return .lookAhead true
  | ['<'] =>
      let token ← take
      match token with
      | [] => fail .unexpectedEnd 0
      | ['='] => return .lookBehind false
      | ['!'] => return .lookBehind true
      | _ => fail (.unknownExtension (String.ofList ('<' :: token))) (token.length + 2)
  | ['('] => return .conditional
  | ['>'] => return .atomic
  | [c] =>
      if isFlag token || c = '-' then
        match ← onCursor (readFlags c) with
        | .global letters => return .options letters
        | .local on off => return .plain ((flags.setAll true on).setAll false off)
      else fail (.unknownExtension (String.ofList token)) (token.length + 1)
  | _ => fail (.unknownExtension (String.ofList token)) (token.length + 1)

/-- Pass over a comment that opened at `start`. -/
def skipComment (start : Nat) : (fuel : Nat) → Reading Unit
  | 0 => throw (.at ⟨.unterminatedComment, start⟩)
  | fuel + 1 => do
      let token ← take
      if token.isEmpty then throw (.at ⟨.unterminatedComment, start⟩)
      else if token = [')'] then return ()
      else skipComment start fuel

/-- Pass over the rest of a line. -/
def skipLine : (fuel : Nat) → Reading Unit
  | 0 => return ()
  | fuel + 1 => do
      let token ← take
      if token.isEmpty || token = ['\n'] then return () else skipLine fuel

/-- Pass over the closing parenthesis of a group that opened at `start`. -/
def closing (start : Nat) : Reading Unit := do
  if !(← accept ')') then throw (.at ⟨.unterminatedGroup, start⟩)

/-- Read the group that a conditional part asks about. -/
def readAsked : Reading Nat := do
  let name ← onCursor (Cursor.takeName ')')
  let index ←
    if Text.isIdentifier name then namedGroup name
    else
      match Numeral.readInteger name with
      | some (.ofNat 0) => fail .groupNumber (name.length + 1)
      | some (.ofNat index) =>
          modify fun state =>
            if (state.references.lookup index).isSome then state
            else { state with references :=
              state.references ++ [(index, state.cursor.position - name.length - 1)] }
          pure index
      | _ => fail (.groupName (String.ofList name)) (name.length + 1)
  checkLookBehind index
  return index

/-- Whether a character is passed over in a spaced pattern. -/
def isSpacing (c : Char) : Bool := [9, 10, 11, 12, 13, 32].contains c.toNat

/-- The part that an ordinary token stands for; it has been passed over. -/
def readSingle (flags : Flags) (token : List Char) : Reading Regex := do
  match token with
  | ['\\', c] => readEscape flags c
  | c :: _ =>
      if c = '[' then
        let (items, negated) ← onCursor fun cursor => do
          let (items, negated, cursor) ← readSet cursor
          return ((items, negated), cursor)
        return .one {
          items := items, negated := negated
          ignoreCase := flags.ignoreCase, ascii := flags.ascii }
      else if c = '.' then return anyChar flags
      else if c = '^' then return .anchor (if flags.multiLine then .lineStart else .textStart)
      else if c = '$' then return .anchor (if flags.multiLine then .lineEnd else .finalLineEnd)
      else return literal flags c.toNat
  | [] => return .empty

/-- Run a reader inside a look-behind and restore what lay outside. -/
def insideLookBehind (read : Reading Regex) : Reading Regex := do
  let before := (← get).outsideLookBehind
  if before.isNone then
    modify fun state => { state with outsideLookBehind := some state.widths.length }
  let body ← read
  if before.isNone then modify fun state => { state with outsideLookBehind := none }
  return body

/-- A look-behind; one without a fixed width is noted for the end. -/
def lookBehindOf (negated : Bool) (body : Regex) : Reading Regex := do
  let width ← widthOf body
  if width.most ≠ some width.least then
    modify fun state => { state with looseLookBehind := true }
  return .lookBehind negated width.least body

mutual

/-- Read alternatives up to the end of their group.  The fuel bounds the
number of parts and groups that are still to come. -/
def readAlternatives : (fuel : Nat) → Flags → (outermost : Bool) → Reading Regex
  | 0, _, _ => fail .unexpectedEnd 0
  | fuel + 1, flags, outermost => do
      let first ← readSequence fuel flags outermost []
      if ← accept '|' then
        let state ← get
        return .alt first (← readFurther fuel (if outermost then state.flags else flags))
      else return first

/-- Read the alternatives behind the first one. -/
def readFurther : (fuel : Nat) → Flags → Reading Regex
  | 0, _ => fail .unexpectedEnd 0
  | fuel + 1, flags => do
      let first ← readSequence fuel flags false []
      if ← accept '|' then return .alt first (← readFurther fuel flags)
      else return first

/-- Read the parts of one alternative and put them behind those before, which
are given the last one first.  Options for the whole pattern may only stand in
front of all parts. -/
def readSequence : (fuel : Nat) → Flags → (leading : Bool) → List Regex → Reading Regex
  | 0, _, _, _ => fail .unexpectedEnd 0
  | fuel + 1, flags, leading, parts => do
      let token ← peek
      if token.isEmpty || token = ['|'] || token = [')'] then return sequence parts
      let start ← position
      let _ ← take
      if flags.spaced && (token.all isSpacing) then readSequence fuel flags leading parts
      else if flags.spaced && token = ['#'] then
        skipLine ((← get).cursor.rest.length + 1)
        readSequence fuel flags leading parts
      else
        match token with
        | ['('] =>
            match ← readKind flags with
            | .comment =>
                skipComment start ((← get).cursor.rest.length + 1)
                readSequence fuel flags leading parts
            | .options letters =>
                if !leading || !parts.isEmpty then
                  throw (.at ⟨.lateFlags, start⟩)
                let flags := flags.setAll true letters
                modify fun state => { state with flags := flags }
                readSequence fuel flags leading parts
            | kind =>
                let part ← readGroup fuel flags start kind
                readSequence fuel flags leading (part :: parts)
        | [c] =>
            if c = '*' || c = '+' || c = '?' || c = '\x7b' then
              match ← readLimits c with
              | some (least, most) =>
                  readSequence fuel flags leading (← repeatLast start least most parts)
              | none => readSequence fuel flags leading (literal flags c.toNat :: parts)
            else readSequence fuel flags leading ((← readSingle flags token) :: parts)
        | _ => readSequence fuel flags leading ((← readSingle flags token) :: parts)

/-- Read the body of a group that opened at `start`, and its end. -/
def readGroup : (fuel : Nat) → Flags → (start : Nat) → GroupKind → Reading Regex
  | 0, _, _, _ => fail .unexpectedEnd 0
  | fuel + 1, flags, start, kind => do
      match kind with
      | .capturing name =>
          let index ← openGroup name
          let body ← readAlternatives fuel flags false
          closing start
          closeGroup index body
          return .capture index body
      | .plain inner =>
          let body ← readAlternatives fuel inner false
          closing start
          return .grouped body
      | .atomic =>
          let body ← readAlternatives fuel flags false
          closing start
          return .atomic body
      | .lookAhead negated =>
          let body ← readAlternatives fuel flags false
          closing start
          return .lookAhead negated body
      | .lookBehind negated =>
          let body ← insideLookBehind (readAlternatives fuel flags false)
          closing start
          lookBehindOf negated body
      | .conditional =>
          let index ← readAsked
          let present ← readSequence fuel flags false []
          let absent ←
            if ← accept '|' then
              let absent ← readSequence fuel flags false []
              if (← peek) = ['|'] then fail .conditionalBranches 0
              pure absent
            else pure .empty
          closing start
          return .conditional index present absent
      | .reference regex => return regex
      | .comment => return .empty
      | .options _ => return .empty

end

/-- The end of a pattern: nothing may be left, and all that was put off is
checked. -/
def finishPattern (regex : Regex) : Reading Compiled := do
  if !(← peek).isEmpty then fail .unbalanced 0
  let state ← get
  match state.references.find? fun (index, _) => decide (state.widths.length ≤ index) with
  | some (index, position) => throw (.at ⟨.groupReference index, position⟩)
  | none => pure ()
  if state.looseLookBehind then throw .looseLookBehind
  return { regex := regex, groups := state.widths.length - 1, names := state.names }

/-- Read a pattern. -/
def compile (text : List Char) : Except SyntaxError Compiled := do
  let cursor ← (Cursor.ofText text).mapError .at
  let read : Reading Compiled := do
    finishPattern (← readAlternatives (4 * text.length + 8) {} true)
  read.run' { cursor := cursor }

end FormulaEdit.Pattern
