import FormulaEdit.Proofs.Command.Apply

/-!
# Recorded edits

Every command reads the whole stack file and writes it anew.  Over any number
of commands the file still only grows: each edit that is told of adds its
record at the end, and a command that makes no edit leaves the whole disk as
it was.
-/

namespace FormulaEdit.Command

open Job

/-- Whether a command tells of an edit. -/
def Report.tellsEdit (report : Report) : Bool :=
  "[+] applied".toList.isPrefixOf report.output.toList

/-- The disk after some command lines. -/
def runAll (settings : Settings) (disk : Disk)
    (commands : List (List String)) : Disk :=
  commands.foldl (fun disk arguments => (run settings disk arguments).disk) disk

/-- The records that belong to some command lines: one for each that tells of
an edit.  All others leave the disk as it is. -/
inductive Recording (settings : Settings) (stackPath : Path) :
    Disk → List (List String) → List Record → Prop where
  | nil (disk : Disk) : Recording settings stackPath disk [] []
  | edit {disk : Disk} {arguments : List String} {rest : List (List String)}
      {path : Path} {cursor : Position} {action : Action}
      {raws : List String} {record : Record} {focus : Int} {text : String}
      {records : List Record}
      (read : Request.read arguments =
        .ok (.apply path cursor action raws (some stackPath) none))
      (told : (run settings disk arguments).tellsEdit = true)
      (edited : Edited settings disk path cursor action raws record focus text)
      (later : Recording settings stackPath (run settings disk arguments).disk
        rest records) :
      Recording settings stackPath disk (arguments :: rest) (record :: records)
  | idle {disk : Disk} {arguments : List String} {rest : List (List String)}
      {records : List Record}
      (untold : (run settings disk arguments).tellsEdit = false)
      (same : (run settings disk arguments).disk = disk)
      (later : Recording settings stackPath disk rest records) :
      Recording settings stackPath disk (arguments :: rest) records

theorem starts_printedText {start line : String} (later : List String)
    (starts : start.toList <+: line.toList) :
    start.toList <+: (printedText (later ++ [line])).toList := by
  rw [printedText, List.reverse_concat, List.map_cons, String.join_cons]
  exact starts_append _ (starts_append _ starts)

theorem appliedLine_eq_ok {action : Action} {focus : Int}
    {condition : Condition} {line : String}
    (told : appliedLine action focus condition = .ok line) :
    "[+] applied".toList <+: line.toList ∧
      condition.fits (some Numeral.maxDigits) = true := by
  unfold appliedLine at told
  dsimp only at told
  split at told
  next fits =>
    cases told
    refine ⟨?_, (Bool.and_eq_true_iff.mp fits).2⟩
    iterate 6 apply starts_append
    decide
  next => cases told

theorem not_applied_of_skip {text : List Char}
    (skipped : "[skip]".toList <+: text) :
    "[+] applied".toList.isPrefixOf text = false := by
  obtain ⟨rest, rfl⟩ := skipped
  rfl

section Step

variable {settings : Settings} {disk : Disk} {stackPath path : Path}
  {cursor : Position} {action : Action} {raws : List String}
  {stack : Stack}

/-- One command changes nothing on the disk, or it tells of an edit whose
record it has added to the stack in the file. -/
theorem report_apply_cases (writable : disk.Writable stackPath)
    (opened : disk.stackAt stackPath = .ok stack) {report : Report}
    (made : Command.report settings disk
      (.apply path cursor action raws (some stackPath) none) = report) :
    (report.tellsEdit = false ∧ report.disk = disk) ∨
      ∃ record focus text,
        Edited settings disk path cursor action raws record focus text ∧
        record.condition.fits (some Numeral.maxDigits) = true ∧
        report.tellsEdit = true ∧ report.disk.Writable stackPath ∧
        report.disk.content? stackPath =
          some ((stack.push record).text ++ "\n") := by
  subst made
  cases ran : (runRequest settings (.apply path cursor action raws
      (some stackPath) none)).run { disk := disk } with
  | mk result after =>
      rcases runApply_cases ran with
        ⟨stop, rfl, rfl⟩ | ⟨line, rfl, rfl, skipped⟩ |
          ⟨before, record, focus, text, line, openedAgain, edited, told,
            finish⟩
      · obtain ⟨output, same⟩ := report_of_error ran
        refine .inl ⟨?_, same⟩
        rw [Report.tellsEdit, output]
        rfl
      · rw [report_of_ok ran]
        refine .inl ⟨?_, rfl⟩
        exact not_applied_of_skip (starts_printedText [] skipped)
      · rw [opened] at openedAgain
        cases openedAgain
        obtain ⟨saved, save, again, written⟩ :=
          writable.delivered ((stack.push record).text ++ "\n")
        have recorded := run_recordStack disk stackPath [line]
          (stack.push record)
        rw [Disk.saveStack, save] at recorded
        rw [run_bind_of_ok recorded] at finish
        cases finish
        rw [report_of_ok ran]
        obtain ⟨starts, fits⟩ := appliedLine_eq_ok told
        refine .inr ⟨record, focus, text, edited, fits, ?_, again, written⟩
        apply List.isPrefixOf_iff_prefix.mpr
        exact starts_printedText [_, _] starts

end Step

theorem Means.readable {key text : String} {value : Json}
    (means : Means key text value) :
    value.Readable (some Numeral.maxDigits) := by
  unfold Means at means
  split at means
  · rw [means]
    exact .str text
  · rcases means with read | ⟨_, same⟩
    · exact Json.readable_of_read read
    · rw [same]
      exact .str text

theorem Decoded.readable {raws : List String} {params : Json.Members}
    (decoded : Decoded raws params) :
    (Json.obj params).Readable (some Numeral.maxDigits) := by
  induction decoded with
  | nil => exact .obj (by simp) (by simp)
  | concat _ _ _ _ means induction => exact induction.put means.readable _

theorem storable_push {limit : Option Nat} {stack : Stack} {record : Record}
    (storable : stack.Storable limit) (added : record.Storable limit) :
    (stack.push record).Storable limit := by
  intro other member
  rw [Stack.push, List.mem_append, List.mem_singleton] at member
  rcases member with earlier | rfl
  · exact storable other earlier
  · exact added

theorem run_of_refusal {settings : Settings} {disk : Disk}
    {arguments : List String} {refusal : Refusal}
    (refused : Request.read arguments = .error refusal) :
    (run settings disk arguments).tellsEdit = false ∧
      (run settings disk arguments).disk = disk := by
  rw [run, refused]
  cases refusal with
  | help =>
      have other : "[+] applied".toList.isPrefixOf usage.toList = false := by
        decide
      exact ⟨other, rfl⟩
  | misuse message => exact ⟨rfl, rfl⟩

/-- An edit command for a stack file, with parameters that can be written
exactly. -/
def Records (stackPath : Path) (arguments : List String) : Prop :=
  ∀ request, Request.read arguments = .ok request →
    ∃ path cursor action raws,
      request = .apply path cursor action raws (some stackPath) none ∧
      ∀ params, Decoded raws params → (Json.obj params).isFloatFree = true

section Run

variable {settings : Settings} {disk : Disk} {stackPath : Path}
  {stack : Stack}

/-- One command line leaves the disk as it is, or it tells of an edit whose
record stands behind the others in the file. -/
theorem run_cases {arguments : List String}
    (writable : disk.Writable stackPath)
    (opened : disk.stackAt stackPath = .ok stack)
    (storable : stack.Storable (some Numeral.maxDigits))
    (records : Records stackPath arguments) {report : Report}
    (made : run settings disk arguments = report) :
    (report.tellsEdit = false ∧ report.disk = disk) ∨
      ∃ path cursor action raws record focus text,
        Request.read arguments =
          .ok (.apply path cursor action raws (some stackPath) none) ∧
        Edited settings disk path cursor action raws record focus text ∧
        report.tellsEdit = true ∧ report.disk.Writable stackPath ∧
        report.disk.has stackPath = true ∧
        (stack.push record).Storable (some Numeral.maxDigits) ∧
        report.disk.loadStack stackPath = .ok (stack.push record) := by
  subst made
  cases read : Request.read arguments with
  | error refusal => exact .inl (run_of_refusal read)
  | ok request =>
      obtain ⟨path, cursor, action, raws, rfl, whole⟩ := records request read
      rw [run_of_read read]
      rcases report_apply_cases writable opened rfl with
        idle | ⟨record, focus, text, edited, fits, told, again, written⟩
      · exact .inl idle
      · have decoded := edited.decoded
        have readable := decoded.readable
        have grown := storable_push storable
          ⟨readable.exact (whole _ decoded), readable.fits, fits⟩
        exact .inr ⟨path, cursor, action, raws, record, focus, text, rfl,
          edited, told, again, Disk.has_of_content written, grown,
          Disk.loadStack_of_saved grown written⟩

end Run

/-- Over any command lines that edit and record in one stack file, the file
holds the records it held before, followed by one for each command that tells
of an edit.  All other commands leave the disk as it is; in particular a file
that was not there is only made with the first record. -/
theorem recorded_stack_only_grows {settings : Settings} {disk : Disk}
    {stackPath : Path} {commands : List (List String)} {initial : Stack}
    (writable : disk.Writable stackPath)
    (opened : disk.stackAt stackPath = .ok initial)
    (whole : ∀ record ∈ initial.records,
      (Json.obj record.params).isFloatFree = true)
    (each : ∀ arguments ∈ commands, Records stackPath arguments) :
    ∃ records, Recording settings stackPath disk commands records ∧
      (disk.has stackPath = true ∨ records ≠ [] →
        (runAll settings disk commands).loadStack stackPath =
          .ok { records := initial.records ++ records }) ∧
      (disk.has stackPath = false → records = [] →
        (runAll settings disk commands).has stackPath = false) := by
  have storable := Disk.storable_of_stackAt opened whole
  clear whole
  induction commands generalizing disk initial with
  | nil =>
      refine ⟨[], .nil disk, ?_, fun absent _ => absent⟩
      intro there
      have present : disk.has stackPath = true := by simpa using there
      rw [Disk.stackAt, if_pos present] at opened
      rw [List.append_nil]
      exact opened
  | cons arguments commands induction =>
      obtain ⟨here, later⟩ := List.forall_mem_cons.mp each
      rcases run_cases writable opened storable here rfl with
        ⟨untold, same⟩ |
          ⟨path, cursor, action, raws, record, focus, text, read, edited, told,
            again, there, grown, loaded⟩
      · obtain ⟨records, recording, present, absent⟩ :=
          induction writable opened later storable
        refine ⟨records, .idle untold same recording, ?_, ?_⟩
        · rw [runAll, List.foldl_cons, same]
          exact present
        · rw [runAll, List.foldl_cons, same]
          exact absent
      · have reopened : (run settings disk arguments).disk.stackAt stackPath =
            .ok (initial.push record) := by
          rw [Disk.stackAt, if_pos there]
          exact loaded
        obtain ⟨records, recording, present, _⟩ :=
          induction again reopened later grown
        refine ⟨record :: records, .edit read told edited recording, ?_, ?_⟩
        · intro _
          have all := present (.inl there)
          rw [Stack.push, List.append_assoc] at all
          exact all
        · intro _ nothing
          cases nothing

deriving instance DecidableEq for Request

theorem records_of_read {stackPath path : Path} {arguments : List String}
    {cursor : Position} {action : Action} {raws : List String}
    (read : (Request.read arguments).toOption =
      some (.apply path cursor action raws (some stackPath) none))
    (whole : (readParams [] raws).toOption.all (fun params =>
      (Json.obj params).isFloatFree) = true) :
    Records stackPath arguments := by
  intro request same
  rw [Result.toOption_eq_some_iff.mp read] at same
  cases same
  refine ⟨path, cursor, action, raws, rfl, ?_⟩
  intro params decoded
  rw [readParams_eq_ok_iff.mpr decoded] at whole
  exact whole

namespace Recording

variable {settings : Settings} {stackPath : Path} {disk : Disk}
  {arguments : List String} {rest : List (List String)}
  {records : List Record}

theorem eq_nil (recording : Recording settings stackPath disk [] records) :
    records = [] := by
  cases recording
  rfl

theorem of_untold
    (recording : Recording settings stackPath disk (arguments :: rest) records)
    (untold : (run settings disk arguments).tellsEdit = false) :
    Recording settings stackPath disk rest records := by
  cases recording with
  | edit _ told =>
      rw [untold] at told
      cases told
  | idle _ _ later => exact later

theorem of_told
    (recording : Recording settings stackPath disk (arguments :: rest) records)
    (told : (run settings disk arguments).tellsEdit = true) {path : Path}
    {cursor : Position} {action : Action} {raws : List String}
    {stack out : Option Path}
    (read : Request.read arguments =
      .ok (.apply path cursor action raws stack out)) :
    ∃ record later, records = record :: later ∧ record.action = action ∧
      Recording settings stackPath (run settings disk arguments).disk rest
        later := by
  cases recording with
  | edit readAgain _ edited later =>
      rw [read] at readAgain
      cases readAgain
      exact ⟨_, _, rfl, edited.rule, later⟩
  | idle untold =>
      rw [told] at untold
      cases untold

end Recording

/-- A cursor that meets no node, and then a name that is replaced by a
numeral: the stack file, which holds one record, gets the second one. -/
theorem recorded_stack_only_grows_replacement :
    ∃ (disk : Disk) (skip replace : List String) (initial : Stack)
      (record : Record),
      Request.read skip = .ok (.apply ⟨["f.txt"], false⟩ ⟨9, 0⟩
        .squashNegation [] (some ⟨["d", "s.json"], false⟩) none) ∧
      Request.read replace = .ok (.apply ⟨["f.txt"], false⟩ ⟨0, 7⟩ .replace
        ["source=y", "target=1", "count=1"]
        (some ⟨["d", "s.json"], false⟩) none) ∧
      disk.stackAt ⟨["d", "s.json"], false⟩ = .ok initial ∧
      initial.records.map Record.action = [.squashNegation] ∧
      record.action = .replace ∧
      Recording {} ⟨["d", "s.json"], false⟩ disk [skip, replace] [record] ∧
      (runAll {} disk [skip, replace]).loadStack ⟨["d", "s.json"], false⟩ =
        .ok { records := initial.records ++ [record] } := by
  let path : Path := ⟨["d", "s.json"], false⟩
  let disk : Disk := {
    files := [(["f.txt"], "(and x y)\n"),
      (["d", "s.json"], "[\x7b\"action\": \"squashNegation\"\x7d]")]
    directories := [["d"]] }
  let skip := ["apply", "f.txt", "--line", "9", "--offset", "0", "--rule",
    "squashNegation", "--stack", "d/s.json"]
  let replace := ["apply", "f.txt", "--line", "0", "--offset", "7", "--rule",
    "replace", "--param", "source=y", "--param", "target=1", "--param",
    "count=1", "--stack", "d/s.json"]
  have skipRead : (Request.read skip).toOption = some (.apply
      ⟨["f.txt"], false⟩ ⟨9, 0⟩ .squashNegation [] (some path) none) := by
    decide +kernel
  have replaceRead : (Request.read replace).toOption = some (.apply
      ⟨["f.txt"], false⟩ ⟨0, 7⟩ .replace ["source=y", "target=1", "count=1"]
      (some path) none) := by
    decide +kernel
  have each : ∀ arguments ∈ [skip, replace], Records path arguments := by
    rw [List.forall_mem_cons, List.forall_mem_singleton]
    exact ⟨records_of_read skipRead (by decide +kernel),
      records_of_read replaceRead (by decide +kernel)⟩
  have writable : disk.Writable path :=
    Disk.writable_of_plain (show disk.locate path = .ok ["d", "s.json"] from rfl)
      rfl
  have opens : (disk.stackAt path).toOption.map (fun stack =>
      (stack.records.map Record.action, stack.records.all fun record =>
        (Json.obj record.params).isFloatFree)) =
      some ([.squashNegation], true) := by
    decide +kernel
  have untold : (run {} disk skip).tellsEdit = false := by decide +kernel
  have told : (run {} disk replace).tellsEdit = true := by decide +kernel
  obtain ⟨initial, found, shown⟩ := Option.map_eq_some_iff.mp opens
  rw [Prod.mk.injEq, List.all_eq_true] at shown
  rw [Result.toOption_eq_some_iff] at found skipRead replaceRead
  obtain ⟨records, recording, loaded, _⟩ :=
    @recorded_stack_only_grows {} disk path [skip, replace] initial writable
      found shown.2 each
  have all := loaded (.inl (by decide +kernel))
  obtain ⟨record, later, rfl, action, last⟩ :=
    (recording.of_untold untold).of_told told replaceRead
  obtain rfl := last.eq_nil
  exact ⟨disk, skip, replace, initial, record, skipRead, replaceRead, found,
    shown.1, action, recording, all⟩

/-- Where nothing was there before, a command that skips leaves nothing to be
loaded. -/
theorem skipped_edit_makes_no_stack :
    ∃ (disk : Disk) (arguments : List String),
      disk.Writable ⟨["s.json"], false⟩ ∧
      disk.has ⟨["s.json"], false⟩ = false ∧
      Records ⟨["s.json"], false⟩ arguments ∧
      (run {} disk arguments).exit = some 0 ∧
      (run {} disk arguments).output =
        "[skip] nothing to do: no node at line 9, offset 0\n" ∧
      (runAll {} disk [arguments]).loadStack ⟨["s.json"], false⟩ =
        .error (.stack (.missingFile "s.json")) := by
  let disk : Disk := { files := [(["f.txt"], "(and x y)\n")] }
  let arguments := ["apply", "f.txt", "--line", "9", "--offset", "0",
    "--rule", "squashNegation", "--stack", "s.json"]
  have same : runAll {} disk [arguments] = disk := by
    decide +kernel
  refine ⟨disk, arguments, Disk.writable_of_plain
    (show disk.locate ⟨["s.json"], false⟩ = .ok ["s.json"] from rfl) rfl, rfl,
    @records_of_read _ ⟨["f.txt"], false⟩ _ ⟨9, 0⟩ .squashNegation []
      (by decide +kernel) rfl, by decide +kernel, by decide +kernel, ?_⟩
  rw [same]
  rfl

end FormulaEdit.Command
