import FormulaEdit.Disk
import FormulaEdit.Proofs.Result

/-!
# Writing files

Making room for a file adds directories and touches no file.  A place once
reached by a path stays the place of that path, so a file that has been written
can be written again, and a failure to write leaves the content at every path
as it was.
-/

namespace FormulaEdit.Disk

variable {disk more : Disk} {path : Path}

/-- The content of the file at the end of a path, if there is one. -/
def content? (disk : Disk) (path : Path) : Option String :=
  match disk.locate path with
  | .ok place => if disk.isDirectory place then none else disk.file? place
  | .error _ => none

theorem content?_eq_some_iff {content : String} :
    disk.content? path = some content ↔
      ∃ place, disk.locate path = .ok place ∧
        disk.isDirectory place = false ∧ disk.file? place = some content := by
  unfold content?
  cases located : disk.locate path with
  | error fault => simp
  | ok place => simp

theorem hasDirectory_iff :
    disk.hasDirectory path = true ↔
      ∃ place, disk.locate path = .ok place ∧
        disk.isDirectory place = true := by
  unfold hasDirectory
  cases disk.locate path with
  | error fault => simp
  | ok place => simp

/-! ## Following paths -/

theorem follow_mono
    (kept : ∀ place, disk.isDirectory place = true →
      more.isDirectory place = true)
    {place found : Place} {names : List String}
    (followed : disk.follow place names = .ok found) :
    more.follow place names = .ok found := by
  induction names generalizing place with
  | nil => exact followed
  | cons name names induction =>
      unfold follow at followed ⊢
      split at followed
      next directory =>
        rw [if_pos (kept place directory)]
        exact induction followed
      next => split at followed <;> cases followed

theorem follow_concat {place found : Place} {names : List String}
    {name : String} :
    disk.follow place (names ++ [name]) = .ok found ↔
      ∃ top, disk.follow place names = .ok top ∧
        disk.isDirectory top = true ∧
        found = if name = ".." then above top else top ++ [name] := by
  have stuck : ∀ place (found : Place), (if (disk.file? place).isSome then
      Except.error FileFault.notDirectory else .error .missing) ≠
        Except.ok found := by
    intro place found
    split
    · intro same
      cases same
    · intro same
      cases same
  induction names generalizing place with
  | nil =>
      rw [List.nil_append, follow, follow]
      by_cases directory : disk.isDirectory place = true
      · rw [if_pos directory, follow]
        constructor
        · intro same
          cases same
          exact ⟨place, rfl, directory, rfl⟩
        · intro ⟨top, same, _, last⟩
          cases same
          rw [last]
      · rw [if_neg directory]
        constructor
        · intro same
          exact absurd same (stuck place _)
        · intro ⟨top, same, above, _⟩
          cases same
          exact absurd above directory
  | cons first names induction =>
      rw [List.cons_append, follow, follow]
      by_cases directory : disk.isDirectory place = true
      · rw [if_pos directory, if_pos directory]
        exact induction
      · rw [if_neg directory, if_neg directory]
        constructor
        · intro same
          exact absurd same (stuck place _)
        · intro ⟨top, same, _, _⟩
          exact absurd same (stuck place _)

theorem locate_of_parts {names : List String} {name : String}
    (parts : path.parts = names ++ [name]) {place : Place} :
    disk.locate path = .ok place ↔
      ∃ top, disk.locate path.parent = .ok top ∧
        disk.isDirectory top = true ∧
        place = if name = ".." then above top else top ++ [name] := by
  have parent : path.parent = { path with parts := names } := by
    rw [Path.parent, parts, List.dropLast_concat]
  rw [parent, locate, parts]
  exact follow_concat

theorem hasDirectory_parent {place : Place}
    (located : disk.locate path = .ok place)
    (plain : disk.isDirectory place = false) :
    disk.hasDirectory path.parent = true := by
  rcases List.eq_nil_or_concat' path.parts with nothing | ⟨names, name, parts⟩
  · rw [locate, nothing, follow] at located
    cases located
    have start : disk.isDirectory (origin path) = true := by
      unfold isDirectory origin
      split <;> simp
    rw [start] at plain
    cases plain
  · obtain ⟨top, above, directory, _⟩ := (locate_of_parts parts).mp located
    exact hasDirectory_iff.mpr ⟨top, above, directory⟩

/-! ## Making directories -/

/-- A disk with further directories, none of them where a file is. -/
structure Grown (disk more : Disk) : Prop where
  files : more.files = disk.files
  kept : ∀ place, disk.isDirectory place = true →
    more.isDirectory place = true
  fresh : ∀ place, more.isDirectory place = true →
    disk.isDirectory place = true ∨ disk.file? place = none

namespace Grown

theorem refl (disk : Disk) : Grown disk disk :=
  { files := rfl
    kept := fun _ directory => directory
    fresh := fun _ directory => .inl directory }

theorem trans {middle : Disk} (first : Grown disk middle)
    (second : Grown middle more) : Grown disk more := by
  refine
    { files := second.files.trans first.files
      kept := fun place directory => second.kept place (first.kept place directory)
      fresh := ?_ }
  intro place directory
  rcases second.fresh place directory with older | absent
  · exact first.fresh place older
  · rw [file?, first.files] at absent
    exact .inr absent

theorem content? (grown : Grown disk more) {content : String}
    (present : disk.content? path = some content) :
    more.content? path = some content := by
  obtain ⟨place, located, plain, found⟩ := content?_eq_some_iff.mp present
  refine content?_eq_some_iff.mpr
    ⟨place, follow_mono grown.kept located, ?_, ?_⟩
  · cases directory : more.isDirectory place with
    | false => rfl
    | true =>
        rcases grown.fresh place directory with older | absent
        · rw [older] at plain
          cases plain
        · rw [found] at absent
          cases absent
  · rw [file?, grown.files]
    exact found

end Grown

theorem makeDirectory_grown (made : disk.makeDirectory path = .ok more) :
    Grown disk more ∧ more.hasDirectory path = true := by
  obtain ⟨place, located, rest⟩ := Result.bind_eq_ok_iff.mp made
  split at rest
  next => cases rest
  next free =>
    cases rest
    rw [Bool.or_eq_true, not_or] at free
    have kept : ∀ other, disk.isDirectory other = true →
        isDirectory { disk with directories := disk.directories ++ [place] }
          other = true := by
      intro other directory
      unfold isDirectory at directory ⊢
      simp only [Bool.or_eq_true, List.contains_eq_mem,
        decide_eq_true_eq, List.mem_append] at directory ⊢
      rcases directory with top | listed
      · exact .inl top
      · exact .inr (.inl listed)
    refine ⟨⟨rfl, kept, ?_⟩, ?_⟩
    · intro other directory
      unfold isDirectory at directory ⊢
      simp only [Bool.or_eq_true, List.contains_eq_mem,
        decide_eq_true_eq, List.mem_append, List.mem_singleton] at directory ⊢
      rcases directory with top | listed | rfl
      · exact .inl (.inl top)
      · exact .inl (.inr listed)
      · exact .inr (Option.not_isSome_iff_eq_none.mp free.2)
    · refine hasDirectory_iff.mpr ⟨place, follow_mono kept located, ?_⟩
      simp [isDirectory]

/-- What a failure or success to make directories leaves behind. -/
structure MadeRoom {ε : Type} (disk : Disk) (path : Path) (more : Disk)
    (result : Except ε Unit) : Prop where
  grown : Grown disk more
  made : result = .ok () ↔ more.hasDirectory path = true

theorem ensureDirectory_made {result : Except (FileFault × Path) Unit}
    (ran : disk.ensureDirectory path = (more, result)) :
    MadeRoom disk path more result := by
  unfold ensureDirectory at ran
  cases made : disk.makeDirectory path with
  | ok edited =>
      rw [made] at ran
      cases ran
      obtain ⟨grown, directory⟩ := makeDirectory_grown made
      exact ⟨grown, by simp [directory]⟩
  | error fault =>
      rw [made] at ran
      cases ran
      refine ⟨.refl disk, ?_⟩
      cases disk.hasDirectory path with
      | true => simp
      | false => simp

/-- A directory is made at once, behind those above it, or not at all. -/
theorem ensureAbove_cases {absolute : Bool} {name : String}
    {names : List String} {result : Except (FileFault × Path) Unit}
    (ran : ensureAbove absolute (name :: names) disk = (more, result)) :
    disk.ensureDirectory ⟨(name :: names).reverse, absolute⟩ =
        (more, result) ∨
      (∃ middle, ensureAbove absolute names disk = (middle, .ok ()) ∧
        middle.ensureDirectory ⟨(name :: names).reverse, absolute⟩ =
          (more, result)) ∨
      ∃ fault, ensureAbove absolute names disk = (more, .error fault) ∧
        result = .error fault := by
  rw [ensureAbove] at ran
  split at ran
  next =>
    cases above : ensureAbove absolute names disk with
    | mk middle outcome =>
        rw [above] at ran
        cases outcome with
        | ok => exact .inr (.inl ⟨middle, rfl, ran⟩)
        | error fault =>
            cases ran
            exact .inr (.inr ⟨fault, rfl, rfl⟩)
  next => exact .inl ran

theorem ensureAbove_made {absolute : Bool} {names : List String}
    {result : Except (FileFault × Path) Unit}
    (ran : ensureAbove absolute names disk = (more, result)) :
    MadeRoom disk ⟨names.reverse, absolute⟩ more result := by
  induction names generalizing disk more result with
  | nil => exact ensureDirectory_made ran
  | cons name names induction =>
      rcases ensureAbove_cases ran with
        once | ⟨middle, above, last⟩ | ⟨fault, above, rfl⟩
      · exact ensureDirectory_made once
      · have made := ensureDirectory_made last
        exact ⟨(induction above).grown.trans made.grown, made.made⟩
      · obtain ⟨grown, made⟩ := induction above
        refine ⟨grown, ?_⟩
        simp only [reduceCtorEq, false_iff] at made ⊢
        intro directory
        obtain ⟨place, located, _⟩ := hasDirectory_iff.mp directory
        obtain ⟨top, found, topDirectory, _⟩ :=
          (locate_of_parts List.reverse_cons).mp located
        apply made
        refine hasDirectory_iff.mpr ⟨top, ?_, topDirectory⟩
        simpa [Path.parent] using found

theorem makeRoom_made {result : Result Unit}
    (ran : disk.makeRoom path = (more, result)) :
    MadeRoom disk path.parent more result := by
  unfold makeRoom at ran
  cases above : disk.ensureDirectories path.parent with
  | mk made outcome =>
      have spec := ensureAbove_made above
      rw [List.reverse_reverse] at spec
      rw [above] at ran
      cases outcome with
      | ok =>
          cases ran
          exact ⟨spec.grown, by simpa using spec.made⟩
      | error fault =>
          cases ran
          exact ⟨spec.grown, by simpa using spec.made⟩

theorem makeRoom_eq_error {failure : Failure}
    (ran : disk.makeRoom path = (more, .error failure)) :
    ∃ fault place, Except.error failure =
      (Except.error (.file fault place) : Result Unit) := by
  unfold makeRoom at ran
  split at ran
  next => cases ran
  next =>
    cases ran
    exact ⟨_, _, rfl⟩

theorem makeRoom_of_directory (there : disk.hasDirectory path.parent = true) :
    disk.makeRoom path = (disk, .ok ()) := by
  obtain ⟨place, located, directory⟩ := hasDirectory_iff.mp there
  have known : disk.makeDirectory path.parent = .error .exists := by
    rw [makeDirectory, located]
    simp only [bind, Except.bind, directory, Bool.true_or, if_true]
  have ensured : disk.ensureDirectory path.parent = (disk, .ok ()) := by
    rw [ensureDirectory, known, there]
    rfl
  have above : disk.ensureDirectories path.parent = (disk, .ok ()) := by
    unfold ensureDirectories
    generalize whole : path.parent.parts.reverse = names
    have same : path.parent = ⟨names.reverse, path.parent.absolute⟩ := by
      rw [← whole, List.reverse_reverse]
    cases names with
    | nil =>
        rw [same] at ensured
        exact ensured
    | cons name names =>
        rw [ensureAbove, ← same, known]
        exact ensured
  rw [makeRoom, above]

/-! ## Writing -/

theorem writeText_cases {content : String} {result : Result Unit}
    (ran : disk.writeText path content = (more, result)) :
    (∃ place, disk.locate path = .ok place ∧
        disk.isDirectory place = false ∧ more = disk.put place content ∧
        result = .ok ()) ∨
      (∃ fault, result = .error (.file fault path.text)) ∧ more = disk ∧
        disk.content? path = none := by
  unfold writeText write at ran
  cases located : disk.locate path with
  | error fault =>
      rw [located] at ran
      cases ran
      refine .inr ⟨⟨fault, rfl⟩, rfl, ?_⟩
      rw [content?, located]
  | ok place =>
      rw [located] at ran
      cases directory : disk.isDirectory place with
      | false =>
          simp only [bind, Except.bind, directory, Bool.false_eq_true,
            if_false] at ran
          cases ran
          exact .inl ⟨place, rfl, directory, rfl, rfl⟩
      | true =>
          simp only [bind, Except.bind, directory, if_true] at ran
          cases ran
          refine .inr ⟨⟨_, rfl⟩, rfl, ?_⟩
          rw [content?, located]
          simp [directory]

theorem file?_put (disk : Disk) (place : Place) (content : String) :
    (disk.put place content).file? place = some content := by
  rw [file?, put, List.lookup_cons_self]

theorem locate_put {place other : Place} {content : String}
    (located : disk.locate path = .ok other) :
    (disk.put place content).locate path = .ok other := by
  have kept : ∀ place', disk.isDirectory place' = true →
      (disk.put place content).isDirectory place' = true :=
    fun _ directory => directory
  exact follow_mono kept located

theorem content?_put {place : Place} {content : String}
    (located : disk.locate path = .ok place)
    (plain : disk.isDirectory place = false) :
    (disk.put place content).content? path = some content :=
  content?_eq_some_iff.mpr
    ⟨place, locate_put located, plain, disk.file?_put place content⟩

/-- A file can be written at the end of a path. -/
def Writable (disk : Disk) (path : Path) : Prop :=
  ∀ content, (disk.deliver path content).2 = .ok ()

theorem deliver_of_plain {place : Place} (content : String)
    (located : disk.locate path = .ok place)
    (plain : disk.isDirectory place = false) :
    disk.deliver path content = (disk.put place content, .ok ()) := by
  rw [deliver, makeRoom_of_directory (hasDirectory_parent located plain)]
  simp only [writeText, write, located, bind, Except.bind, plain,
    Bool.false_eq_true, if_false]

theorem writable_of_plain {place : Place}
    (located : disk.locate path = .ok place)
    (plain : disk.isDirectory place = false) : disk.Writable path := by
  intro content
  rw [deliver_of_plain content located plain]

/-- A file is written, or the files are as they were. -/
theorem deliver_cases {content : String} {result : Result Unit}
    (ran : disk.deliver path content = (more, result)) :
    (result = .ok () ∧ more.Writable path ∧
        more.content? path = some content) ∨
      (∃ fault place, result = .error (.file fault place)) ∧
        Grown disk more ∧ more.content? path = disk.content? path := by
  unfold deliver at ran
  cases room : disk.makeRoom path with
  | mk middle outcome =>
      have made := makeRoom_made room
      rw [room] at ran
      -- A file that is there has a directory to hold it, so what cannot be
      -- written was not there.
      have absent : middle.content? path = none →
          middle.content? path = disk.content? path := by
        intro nothing
        cases before : disk.content? path with
        | none => exact nothing
        | some content =>
            rw [made.grown.content? before] at nothing
            cases nothing
      cases outcome with
      | error failure =>
          cases ran
          refine .inr ⟨makeRoom_eq_error room, made.grown, absent ?_⟩
          cases content : more.content? path with
          | none => rfl
          | some text =>
              obtain ⟨place, located, plain, _⟩ :=
                content?_eq_some_iff.mp content
              have there := hasDirectory_parent located plain
              rw [← made.made] at there
              cases there
      | ok =>
          rcases writeText_cases ran with
            ⟨place, located, plain, rfl, rfl⟩ | ⟨⟨fault, rfl⟩, rfl, nothing⟩
          · exact .inl ⟨rfl, writable_of_plain (locate_put located) plain,
              content?_put located plain⟩
          · exact .inr ⟨⟨fault, _, rfl⟩, made.grown, absent nothing⟩

theorem Writable.delivered (writable : disk.Writable path) (content : String) :
    ∃ more, disk.deliver path content = (more, .ok ()) ∧
      more.Writable path ∧ more.content? path = some content := by
  have ran : disk.deliver path content =
      ((disk.deliver path content).1, .ok ()) := by
    rw [← writable content]
  rcases deliver_cases ran with ⟨_, again, written⟩ | ⟨⟨_, _, failed⟩, _⟩
  · exact ⟨_, ran, again, written⟩
  · cases failed

end FormulaEdit.Disk
