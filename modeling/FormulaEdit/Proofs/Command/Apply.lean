import FormulaEdit.Command.Run
import FormulaEdit.Proofs.Disk.Stack
import FormulaEdit.Proofs.Session.Atomicity
import Mathlib.Data.List.Induction

/-!
# Applying a rule from the command line

An application of a rule looks at the stack file, the formula and the
parameters before it writes anything.  When the rule changes the formula, the
edit is told, then recorded, and then its text is delivered.
-/

namespace FormulaEdit.Command

namespace Job

variable {α β : Type} {job : Job α} {next : α → Job β}
  {console middle after : Console}

theorem run_bind_of_ok {value : α}
    (ran : job.run console = (.ok value, middle)) :
    (job >>= next).run console = (next value).run middle := by
  rw [ExceptT.run_bind]
  simp only [bind, StateT.bind, ran]

theorem run_bind_of_error {stop : Stop}
    (ran : job.run console = (.error stop, middle)) :
    (job >>= next).run console = (.error stop, middle) := by
  rw [ExceptT.run_bind]
  simp only [bind, StateT.bind, ran]
  rfl

theorem bind_cases {result : Except Stop β}
    (ran : (job >>= next).run console = (result, after)) :
    (∃ stop, job.run console = (.error stop, after) ∧
        result = .error stop) ∨
      ∃ value middle, job.run console = (.ok value, middle) ∧
        (next value).run middle = (result, after) := by
  cases first : job.run console with
  | mk outcome middle =>
      cases outcome with
      | error stop =>
          rw [run_bind_of_error first] at ran
          cases ran
          exact .inl ⟨stop, rfl, rfl⟩
      | ok value =>
          rw [run_bind_of_ok first] at ran
          exact .inr ⟨value, middle, rfl, ran⟩

theorem look_cases {found : Except Stop α} {result : Except Stop β}
    (look : job.run console = (found, console))
    (ran : (job >>= next).run console = (result, after)) :
    (∃ stop, result = .error stop ∧ after = console) ∨
      ∃ value, found = .ok value ∧
        (next value).run console = (result, after) := by
  rcases bind_cases ran with ⟨stop, stopped, rfl⟩ | ⟨value, _, went, rest⟩
  · rw [look] at stopped
    cases stopped
    exact .inl ⟨stop, rfl, rfl⟩
  · rw [look] at went
    cases went
    exact .inr ⟨value, rfl, rest⟩

theorem mapError_eq_ok_iff {result : Result α} {value : α} :
    result.mapError Stop.failed = .ok value ↔ result = .ok value := by
  cases result with
  | ok found => simp [Except.mapError]
  | error failure => simp [Except.mapError]

theorem run_ofResult (result : Result α) (console : Console) :
    (ofResult result).run console = (result.mapError .failed, console) := by
  cases result with
  | ok value => rfl
  | error failure => rfl

theorem run_readText (path : Path) (console : Console) :
    (readText path).run console =
      ((console.disk.readText path).mapError .failed, console) :=
  run_ofResult _ _

theorem run_onDisk (attempt : Disk → Disk × Result Unit) (console : Console) :
    (onDisk attempt).run console =
      ((attempt console.disk).2.mapError .failed,
        { console with disk := (attempt console.disk).1 }) := by
  exact run_ofResult _ _

end Job

open Job

theorem run_openStack (path : Path) (console : Console) :
    (openStack (some path)).run console =
      ((console.disk.stackAt path).mapError .failed, console) := by
  have job : (openStack (some path)).run console =
      (if console.disk.has path then ofResult (console.disk.loadStack path)
        else pure {} : Job Stack).run console := rfl
  rw [job, Disk.stackAt]
  split
  · exact run_ofResult _ _
  · rfl

/-- How a command goes on once a text was to be delivered: a line tells of it,
or the command ends. -/
def tellDelivery (line : String) (printed : List String) :
    Disk × Result Unit → Except Stop Unit × Console
  | (disk, .ok ()) => (.ok (), { disk := disk, printed := line :: printed })
  | (disk, .error failure) =>
      (.error (.failed failure), { disk := disk, printed := printed })

section Writing

variable (disk : Disk) (path : Path) (printed : List String)

theorem run_deliver (content line : String) :
    (do onDisk fun disk => disk.deliver path content
        print line : Job Unit).run { disk := disk, printed := printed } =
      tellDelivery line printed (disk.deliver path content) := by
  have delivery := run_onDisk (fun disk => disk.deliver path content)
    { disk := disk, printed := printed }
  cases delivered : disk.deliver path content with
  | mk after result =>
      simp only [delivered] at delivery
      cases result with
      | ok => exact run_bind_of_ok delivery
      | error failure => exact run_bind_of_error delivery

theorem run_recordStack (stack : Stack) :
    (recordStack stack path).run { disk := disk, printed := printed } =
      tellDelivery s!"[+] recorded rule #{stack.size - 1} in {path.text}" printed
        (disk.saveStack path stack) :=
  run_deliver disk path printed _ _

theorem run_emit (text : String) :
    (emit text (some path)).run { disk := disk, printed := printed } =
      tellDelivery s!"[+] wrote {path.text}" printed
        (disk.deliver path (withLineEnd text)) :=
  run_deliver disk path printed _ _

end Writing

/-- How the value of a parameter is understood: the texts to be matched with
tokens stay as they are, others are read where they can be. -/
def Means (key text : String) (value : Json) : Prop :=
  if key = "source" ∨ key = "target" then value = .str text
  else Json.read (some Numeral.maxDigits) text = .ok value ∨
    (∃ error, Json.read (some Numeral.maxDigits) text =
      .error (.malformed error)) ∧ value = .str text

/-- The parameters of texts of the form `key=value`; of those with the same
key the last one counts. -/
inductive Decoded : List String → Json.Members → Prop where
  | nil : Decoded [] []
  | concat {raws : List String} {params : Json.Members} {raw key text : String}
      {value : Json} (earlier : Decoded raws params) (named : key ≠ "")
      (first : '=' ∉ key.toList) (split : raw = key ++ "=" ++ text)
      (means : Means key text value) :
      Decoded (raws ++ [raw]) (params.put key value)

theorem splitEquals_eq {text key value : List Char}
    (split : splitEquals text = (key, some value)) :
    text = key ++ '=' :: value ∧ '=' ∉ key := by
  unfold splitEquals at split
  rw [List.span_eq_takeWhile_dropWhile] at split
  cases behind : text.dropWhile (· ≠ '=') with
  | nil =>
      rw [behind] at split
      cases split
  | cons c rest =>
      rw [behind] at split
      cases split
      have sign : c = '=' := by
        have stops := List.head?_dropWhile_not (· ≠ '=') text
        rw [behind] at stops
        simpa using stops
      have passed := List.all_eq_true.mp
        (List.all_takeWhile (p := (· ≠ '=')) (l := text))
      constructor
      · have whole := List.takeWhile_append_dropWhile (p := (· ≠ '=')) (l := text)
        rw [behind, sign] at whole
        exact whole.symm
      · intro member
        simpa using passed _ member

theorem splitEquals_append {key : List Char} (first : '=' ∉ key)
    (value : List Char) :
    splitEquals (key ++ '=' :: value) = (key, some value) := by
  have passed : ∀ c ∈ key, decide (c ≠ '=') = true := by
    intro c member
    apply decide_eq_true
    intro same
    rw [same] at member
    exact first member
  rw [splitEquals, List.span_eq_takeWhile_dropWhile,
    List.takeWhile_append_of_pos passed, List.dropWhile_append_of_pos passed]
  simp

theorem means_iff {key text : String} {value : Json} :
    Means key text value ↔
      paramValue key.toList text.toList = .ok value := by
  unfold Means paramValue
  rw [String.ofList_toList]
  simp only [Bool.or_eq_true, decide_eq_true_eq, String.toList_inj]
  by_cases raw : key = "source" ∨ key = "target"
  · rw [if_pos raw, if_pos raw]
    simp [eq_comm]
  · rw [if_neg raw, if_neg raw]
    cases Json.read (some Numeral.maxDigits) text with
    | ok found => simp
    | error refusal => cases refusal <;> simp [eq_comm]

theorem readParams_append (before : Json.Members) (earlier later : List String) :
    readParams before (earlier ++ later) =
      readParams before earlier >>= fun params => readParams params later := by
  induction earlier generalizing before with
  | nil => rfl
  | cons raw earlier induction =>
      rw [List.cons_append, readParams, readParams]
      split
      · rfl
      · rfl
      · split
        · exact induction _
        · rfl

theorem readParams_single {before params : Json.Members} {raw : String} :
    readParams before [raw] = .ok params ↔
      ∃ key text value, key ≠ "" ∧ '=' ∉ key.toList ∧
        raw = key ++ "=" ++ text ∧ Means key text value ∧
        params = before.put key value := by
  constructor
  · intro read
    unfold readParams at read
    split at read
    next => cases read
    next => cases read
    next key text named split =>
      obtain ⟨whole, first⟩ := splitEquals_eq split
      split at read
      next value understood =>
        cases read
        refine ⟨String.ofList key, String.ofList text, value, ?_, ?_, ?_,
          means_iff.mpr ?_, rfl⟩
        · intro same
          apply named
          rw [← String.toList_ofList (l := key), same]
          rfl
        · rw [String.toList_ofList]
          exact first
        · rw [← String.toList_inj, whole]
          simp [String.toList_append]
        · rw [String.toList_ofList, String.toList_ofList]
          exact understood
      next => cases read
  · intro ⟨key, text, value, named, first, split, means, same⟩
    have parts : splitEquals raw.toList = (key.toList, some text.toList) := by
      rw [split, String.toList_append, String.toList_append, List.append_assoc]
      exact splitEquals_append first text.toList
    obtain ⟨c, rest, starts⟩ := List.exists_cons_of_ne_nil
      (fun nothing => named (String.toList_eq_nil_iff.mp nothing))
    have understood := means_iff.mp means
    rw [readParams, parts, same]
    rw [starts] at understood ⊢
    simp only [understood, readParams]
    rw [← starts, String.ofList_toList]

theorem readParams_eq_ok_iff {raws : List String} {params : Json.Members} :
    readParams [] raws = .ok params ↔ Decoded raws params := by
  constructor
  · intro read
    induction raws using List.reverseRecOn generalizing params with
    | nil =>
        cases read
        exact .nil
    | append_singleton raws raw induction =>
        rw [readParams_append, Result.bind_eq_ok_iff] at read
        obtain ⟨before, earlier, last⟩ := read
        obtain ⟨key, text, value, named, first, split, means, rfl⟩ :=
          readParams_single.mp last
        exact .concat (induction earlier) named first split means
  · intro decoded
    induction decoded with
    | nil => rfl
    | concat earlier named first split means induction =>
        rw [readParams_append, Result.bind_eq_ok_iff]
        exact ⟨_, induction, readParams_single.mpr
          ⟨_, _, _, named, first, split, means, rfl⟩⟩

/-- An edit of the formula in a file: a rule changes the formula at a cursor,
and the record of the edit tells the rule, its parameters and the condition
for repeating it, which comes from the formula before the edit. -/
structure Edited (settings : Settings) (disk : Disk) (path : Path)
    (cursor : Position) (action : Action) (raws : List String)
    (record : Record) (focus : Int) (text : String) : Prop where
  rule : record.action = action
  decoded : Decoded raws record.params
  edit : ∃ formula arena node outcome,
    disk.readText path = .ok formula ∧ Arena.ofText formula = .ok arena ∧
      arena.findAt cursor = .ok (some node) ∧ node.id = focus ∧
      action.run arena focus record.params .always = .ok outcome ∧
      outcome.changed = true ∧
      Condition.generalize action arena node = .ok record.condition ∧
      outcome.arena.render settings.layout = .ok text

theorem starts_append {start text : String} (rest : String)
    (starts : start.toList <+: text.toList) :
    start.toList <+: (text ++ rest).toList := by
  rw [String.toList_append]
  exact starts.trans (List.prefix_append _ _)

section Apply

variable {settings : Settings} {disk : Disk} {path stackPath : Path}
  {cursor : Position} {action : Action} {raws : List String}
  {out : Option Path} {result : Except Stop Unit} {after : Console}

/-- How an application of a rule can go: it stops early, it has nothing to do,
or it tells of the edit, records it and delivers the text. -/
theorem runApply_cases
    (ran : (runApply settings path cursor action raws (some stackPath)
      out).run { disk := disk } = (result, after)) :
    (∃ stop, result = .error stop ∧ after = { disk := disk }) ∨
      (∃ line, result = .ok () ∧
        after = { disk := disk, printed := [line] } ∧
        "[skip]".toList <+: line.toList) ∨
      ∃ before record focus text line, disk.stackAt stackPath = .ok before ∧
        Edited settings disk path cursor action raws record focus text ∧
        appliedLine action focus record.condition = .ok line ∧
        (do recordStack (before.push record) stackPath
            emit text out : Job Unit).run
          { disk := disk, printed := [line] } = (result, after) := by
  rcases look_cases (run_openStack stackPath _) ran with
    early | ⟨before, opened, rest⟩
  · exact .inl early
  rcases look_cases (run_readText path _) rest with
    early | ⟨formula, read, rest⟩
  · exact .inl early
  rcases look_cases rfl rest with
    early | ⟨params, decoded, rest⟩
  · exact .inl early
  rw [mapError_eq_ok_iff] at opened read
  cases proposed : Session.propose formula cursor (.str action.name) params with
  | error failure =>
      simp only [Session.applyAt, proposed] at rest
      rcases look_cases (run_ofResult _ _) rest with
        early | ⟨_, impossible, _⟩
      · exact .inl early
      · cases impossible
  | ok proposal =>
      rcases Session.propose_cases proposed with
        ⟨skipped, rfl, _, status⟩ |
          ⟨rule, start, node, outcome, condition, changes, general, rfl⟩
      · simp only [Session.applyAt, proposed] at rest
        rcases look_cases (run_ofResult _ _) rest with
          early | ⟨_, same, finish⟩
        · exact .inl early
        cases same
        rcases status with nowhere | unchanged
        · rw [nowhere] at finish
          cases finish
          refine .inr (.inl ⟨_, rfl, rfl, ?_⟩)
          iterate 3 apply starts_append
          decide
        · rw [unchanged] at finish
          cases finish
          refine .inr (.inl ⟨_, rfl, rfl, ?_⟩)
          iterate 3 apply starts_append
          decide
      · simp only [Session.applyAt, proposed] at rest
        rcases look_cases (run_ofResult _ _) rest with
          early | ⟨edited, rendered, finish⟩
        · exact .inl early
        rw [mapError_eq_ok_iff] at rendered
        obtain ⟨text, shown, rfl⟩ := Result.map_eq_ok_iff.mp rendered
        have named := changes.named
        rw [action.ofJson_name] at named
        cases named
        rcases look_cases (run_ofResult _ _) finish with
          early | ⟨line, told, finish⟩
        · exact .inl early
        rw [mapError_eq_ok_iff] at told
        refine .inr (.inr ⟨before, ⟨action, params, condition⟩, node.id, text,
          line, opened, ?_, told, finish⟩)
        exact
          { rule := rfl
            decoded := readParams_eq_ok_iff.mp decoded
            edit := ⟨formula, start, node, outcome, read, changes.read,
              changes.found, rfl, changes.ran, changes.changed, general,
              shown⟩ }

/-- How an edit is recorded and delivered: it is not recorded, or all goes
well, or the text cannot be delivered. -/
theorem finish_cases {stack : Stack} {text : String} {printed : List String}
    (ran : (do recordStack stack stackPath
               emit text out : Job Unit).run
      { disk := disk, printed := printed } = (result, after)) :
    (∃ failure, result = .error (.failed failure) ∧
        after.disk.content? stackPath = disk.content? stackPath) ∨
      ∃ saved, disk.saveStack stackPath stack = (saved, .ok ()) ∧
        (result = .ok () ∨
          ∃ outPath fault place, out = some outPath ∧
            saved.deliver outPath (withLineEnd text) =
              (after.disk, .error (.file fault place)) ∧
            result = .error (.failed (.file fault place))) := by
  cases save : disk.saveStack stackPath stack with
  | mk saved outcome =>
      have recorded := run_recordStack disk stackPath printed stack
      rw [save] at recorded
      cases outcome with
      | error failure =>
          rw [run_bind_of_error recorded] at ran
          cases ran
          rcases Disk.deliver_cases save with ⟨fine, _⟩ | ⟨_, _, same⟩
          · cases fine
          · exact .inl ⟨failure, rfl, same⟩
      | ok =>
          refine .inr ⟨saved, rfl, ?_⟩
          rw [run_bind_of_ok recorded] at ran
          cases out with
          | none =>
              cases ran
              exact .inl rfl
          | some outPath =>
              cases delivery : saved.deliver outPath (withLineEnd text) with
              | mk delivered ending =>
                  rw [run_emit, delivery] at ran
                  cases ending with
                  | ok =>
                      cases ran
                      exact .inl rfl
                  | error failure =>
                      cases ran
                      rcases Disk.deliver_cases delivery with
                        ⟨fine, _⟩ | ⟨⟨fault, place, same⟩, _⟩
                      · cases fine
                      · cases same
                        exact .inr ⟨outPath, fault, place, rfl, delivery, rfl⟩

end Apply

section Reports

variable {settings : Settings} {disk : Disk} {request : Request}
  {after : Console}

theorem report_of_ok
    (ran : (runRequest settings request).run { disk := disk } =
      (.ok (), after)) :
    report settings disk request =
      ⟨some 0, printedText after.printed, "", none, after.disk⟩ := by
  rw [report, ran]

theorem report_of_error {stop : Stop}
    (ran : (runRequest settings request).run { disk := disk } =
      (.error stop, after)) :
    (report settings disk request).output = printedText after.printed ∧
      (report settings disk request).disk = after.disk := by
  rw [report, ran]
  cases stop with
  | badParam message => exact ⟨rfl, rfl⟩
  | failed failure =>
      cases reported : failure.isReported with
      | true => simp [reported]
      | false => simp [reported]

theorem report_of_fileFault {fault : FileFault} {place : String}
    (ran : (runRequest settings request).run { disk := disk } =
      (.error (.failed (.file fault place)), after)) :
    report settings disk request =
      ⟨none, printedText after.printed, "", some (.file fault place),
        after.disk⟩ := by
  rw [report, ran]
  rfl

theorem run_of_read {arguments : List String}
    (read : Request.read arguments = .ok request) :
    run settings disk arguments = report settings disk request := by
  rw [run, read]

end Reports

/-- A failing application of a rule leaves the stack file as it was, unless
the text cannot be written to the place it is to go to: the edit is recorded
before it is delivered. -/
theorem failed_edit_recorded_only_if_undelivered {settings : Settings}
    {disk : Disk} {arguments : List String} {path stackPath : Path}
    {cursor : Position} {action : Action} {raws : List String}
    {out : Option Path}
    (read : Request.read arguments =
      .ok (.apply path cursor action raws (some stackPath) out))
    (failed : (run settings disk arguments).exit ≠ some 0) :
    (run settings disk arguments).disk.content? stackPath =
        disk.content? stackPath ∨
      ∃ outPath before record focus text saved fault place,
        out = some outPath ∧ disk.stackAt stackPath = .ok before ∧
        Edited settings disk path cursor action raws record focus text ∧
        disk.saveStack stackPath (before.push record) = (saved, .ok ()) ∧
        (saved.deliver outPath (withLineEnd text)).2 =
          .error (.file fault place) ∧
        (run settings disk arguments).exit = none ∧
        (run settings disk arguments).failure = some (.file fault place) ∧
        (run settings disk arguments).disk.content? stackPath =
          some ((before.push record).text ++ "\n") := by
  rw [run_of_read read] at failed ⊢
  cases ran : (runRequest settings (.apply path cursor action raws
      (some stackPath) out)).run { disk := disk } with
  | mk result after =>
      rcases runApply_cases ran with
        ⟨stop, rfl, rfl⟩ | ⟨line, rfl, _⟩ |
          ⟨before, record, focus, text, _, opened, edited, _, finish⟩
      · rw [(report_of_error ran).2]
        exact .inl rfl
      · rw [report_of_ok ran] at failed
        exact absurd rfl failed
      rcases finish_cases finish with
        ⟨failure, rfl, same⟩ |
          ⟨saved, save, rfl | ⟨outPath, fault, place, rfl, refused, rfl⟩⟩
      · rw [(report_of_error ran).2]
        exact .inl same
      · rw [report_of_ok ran] at failed
        exact absurd rfl failed
      · rw [report_of_fileFault ran]
        refine .inr ⟨outPath, before, record, focus, text, saved, fault, place,
          rfl, opened, edited, save, by rw [refused], rfl, rfl, ?_⟩
        rcases Disk.deliver_cases save with ⟨_, _, written⟩ | ⟨⟨_, _, bad⟩, _⟩
        · rcases Disk.deliver_cases refused with ⟨fine, _⟩ | ⟨_, grown, _⟩
          · cases fine
          · exact grown.content? written
        · cases bad

/-- Where the formula cannot be read, the stack file is not touched, whatever
would have become of the text. -/
theorem failed_edit_recorded_only_if_undelivered_malformed :
    ∃ (disk : Disk) (arguments : List String),
      Request.read arguments = .ok (.apply ⟨["f.txt"], false⟩ ⟨0, 5⟩
        .toggleBreak [] (some ⟨["s.json"], false⟩) (some ⟨["d"], false⟩)) ∧
      (run {} disk arguments).exit = some 1 ∧
      disk.content? ⟨["s.json"], false⟩ = some "[]" ∧
      (run {} disk arguments).disk.content? ⟨["s.json"], false⟩ =
        some "[]" := by
  let disk : Disk := {
    files := [(["f.txt"], "(and x"), (["s.json"], "[]")]
    directories := [["d"]] }
  let arguments := ["apply", "f.txt", "--line", "0", "--offset", "5", "--rule",
    "changeBreak", "--stack", "s.json", "--out", "d"]
  have read : Request.read arguments = .ok (.apply ⟨["f.txt"], false⟩ ⟨0, 5⟩
      .toggleBreak [] (some ⟨["s.json"], false⟩) (some ⟨["d"], false⟩)) := by
    rfl
  have exit : (run {} disk arguments).exit = some 1 := by decide +kernel
  have before : disk.content? ⟨["s.json"], false⟩ = some "[]" := by
    decide +kernel
  refine ⟨disk, arguments, read, exit, before, ?_⟩
  rcases failed_edit_recorded_only_if_undelivered read
      (by rw [exit]; decide) with
    same | ⟨_, _, _, _, _, _, _, _, _, _, _, _, _, escaped, _⟩
  · rw [same, before]
  · rw [exit] at escaped
    cases escaped

/-- A text that is to replace a directory is not delivered, but the edit is
recorded in a new stack file. -/
theorem undelivered_edit_recorded :
    ∃ (disk : Disk) (arguments : List String),
      Request.read arguments = .ok (.apply ⟨["f.txt"], false⟩ ⟨0, 5⟩
        .toggleBreak [] (some ⟨["s.json"], false⟩) (some ⟨["d"], false⟩)) ∧
      (run {} disk arguments).exit = none ∧
      (run {} disk arguments).failure.map Failure.message =
        some "[Errno 21] Is a directory: 'd'" ∧
      disk.content? ⟨["s.json"], false⟩ = none ∧
      (run {} disk arguments).disk.content? ⟨["s.json"], false⟩ ≠ none := by
  refine ⟨{
    files := [(["f.txt"], "(and x y)\n")]
    directories := [["d"]] },
    ["apply", "f.txt", "--line", "0", "--offset", "5", "--rule",
      "changeBreak", "--stack", "s.json", "--out", "d"], rfl, ?_⟩
  decide +kernel

end FormulaEdit.Command
