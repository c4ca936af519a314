import FormulaEdit.Disk.Stack
import FormulaEdit.Proofs.Disk
import FormulaEdit.Proofs.Json.Stored
import FormulaEdit.Proofs.Stack
import FormulaEdit.Proofs.Stack.Loading

/-!
# Stacks in files

A saved stack is loaded again as it was, whatever the disk, provided that its
parameters are exact and its integers not too long.  Those of a loaded stack
are, where they have no floating-point numbers.
-/

namespace FormulaEdit

theorem Json.Members.mem_of_get? {members : Json.Members} {key : String}
    {value : Json} (found : members.get? key = some value) :
    (key, value) ∈ members := by
  induction members with
  | nil => cases found
  | cons member members induction =>
      obtain ⟨name, first⟩ := member
      unfold Json.Members.get? at found
      split at found
      next same =>
        cases found
        rw [same]
        exact List.mem_cons_self
      next => exact List.mem_cons_of_mem _ (induction found)

theorem Condition.RecordedAs.fits {limit : Option Nat}
    {condition : Condition} {value : Json}
    (recorded : condition.RecordedAs value) (readable : value.Readable limit) :
    condition.fits limit = true := by
  induction recorded with
  | depthIs kind value =>
      cases readable with
      | obj keys each =>
          cases each _ (Json.Members.mem_of_get? value) with
          | int fits => exact fits
  | both kind left right _ _ firstFits secondFits =>
      cases readable with
      | obj keys each =>
          have first := firstFits (each _ (Json.Members.mem_of_get? left))
          have second := secondFits (each _ (Json.Members.mem_of_get? right))
          simp [Condition.fits, first, second]
  | _ => rfl

/-- A record that is read back by a reader with a limit. -/
structure Record.Storable (limit : Option Nat) (record : Record) : Prop where
  exact : (Json.obj record.params).Exact
  params : (Json.obj record.params).fits limit = true
  condition : record.condition.fits limit = true

/-- What was read can be written and read again, if it has no floating-point
numbers. -/
theorem Record.RecordedAs.storable {limit : Option Nat} {record : Record}
    {value : Json} (recorded : record.RecordedAs value)
    (readable : value.Readable limit)
    (whole : (Json.obj record.params).isFloatFree = true) :
    record.Storable limit := by
  cases recorded with
  | object action params condition =>
      cases readable with
      | obj keys each =>
          have inside : (Json.obj record.params).Readable limit := by
            rcases params with found | ⟨_, nothing⟩
            · exact each _ (Json.Members.mem_of_get? found)
            · rw [nothing]
              exact .obj (by simp) (by simp)
          refine ⟨inside.exact whole, inside.fits, ?_⟩
          rcases condition with ⟨value, found, recorded⟩ | ⟨_, always⟩
          · exact recorded.fits (each _ (Json.Members.mem_of_get? found))
          · rw [always]
            rfl

/-- The records of a stack are read back by a reader with a limit. -/
def Stack.Storable (limit : Option Nat) (stack : Stack) : Prop :=
  ∀ record ∈ stack.records, record.Storable limit

namespace Stack

variable {limit : Option Nat} {stack : Stack}

theorem storable_of_recorded {records : List Record} {items : List Json}
    (recorded : List.Forall₂ Record.RecordedAs records items)
    (readable : ∀ item ∈ items, item.Readable limit)
    (whole : ∀ record ∈ records,
      (Json.obj record.params).isFloatFree = true) :
    ∀ record ∈ records, record.Storable limit := by
  induction recorded with
  | nil => simp
  | cons first _ induction =>
      rw [List.forall_mem_cons] at readable whole ⊢
      exact ⟨first.storable readable.1 whole.1,
        induction readable.2 whole.2⟩

theorem storable_of_ofText {text : String}
    (read : ofText limit text = .ok stack)
    (whole : ∀ record ∈ stack.records,
      (Json.obj record.params).isFloatFree = true) : stack.Storable limit := by
  obtain ⟨items, value, recorded⟩ := ofText_eq_ok_iff.mp read
  cases Json.readable_of_read value with
  | arr readable => exact storable_of_recorded recorded readable whole

theorem Storable.exact_toJson (storable : stack.Storable limit) :
    stack.toJson.Exact :=
  Stack.exact_toJson fun record member => (storable record member).exact

theorem ofText_line (storable : stack.Storable limit) :
    ofText limit (stack.text ++ "\n") = .ok stack := by
  have fits := fits_toJson_iff.mpr fun record member =>
    ⟨(storable record member).params, (storable record member).condition⟩
  rw [ofText, text, Json.read_indented_line storable.exact_toJson fits]
  exact stack.ofJson_toJson

theorem plain_text (storable : stack.Storable limit) :
    ∀ c ∈ stack.text.toList, Json.Plain c := by
  rw [text, Json.indented, String.toList_ofList]
  exact storable.exact_toJson.plain_written 0

end Stack

namespace Disk

variable {disk more : Disk} {path : Path} {stack : Stack}

theorem unifyLineEnds_of_notMem {text : List Char} (absent : '\r' ∉ text) :
    unifyLineEnds text = text := by
  fun_induction unifyLineEnds text with
  | case1 => rfl
  | case2 => simp at absent
  | case3 => simp at absent
  | case4 c rest _ _ induction =>
      rw [induction (fun later => absent (List.mem_cons_of_mem _ later))]

/-- The stack at the end of a path: none where nothing is there. -/
def stackAt (disk : Disk) (path : Path) : Result Stack :=
  if disk.has path then disk.loadStack path else .ok {}

theorem has_of_content {content : String}
    (written : disk.content? path = some content) : disk.has path = true := by
  obtain ⟨place, located, _, found⟩ := content?_eq_some_iff.mp written
  simp [has, located, found]

theorem loadStack_of_content {content : String}
    (written : disk.content? path = some content) :
    disk.loadStack path =
      Stack.ofText (some Numeral.maxDigits)
        (String.ofList (unifyLineEnds content.toList)) := by
  obtain ⟨place, located, plain, found⟩ := content?_eq_some_iff.mp written
  have read : disk.read path =
      .ok (String.ofList (unifyLineEnds content.toList)) := by
    simp [Disk.read, located, plain, found, bind, Except.bind]
  rw [loadStack, read]

theorem loadStack_of_saved (storable : stack.Storable (some Numeral.maxDigits))
    (written : disk.content? path = some (stack.text ++ "\n")) :
    disk.loadStack path = .ok stack := by
  have unchanged : unifyLineEnds (stack.text ++ "\n").toList =
      (stack.text ++ "\n").toList := by
    apply unifyLineEnds_of_notMem
    intro member
    rw [String.toList_append, List.mem_append] at member
    rcases member with inside | behind
    · exact absurd (Stack.plain_text storable _ inside) (by decide)
    · exact absurd behind (by decide)
  rw [loadStack_of_content written, unchanged, String.ofList_toList]
  exact Stack.ofText_line storable

theorem storable_of_stackAt (opened : disk.stackAt path = .ok stack)
    (whole : ∀ record ∈ stack.records,
      (Json.obj record.params).isFloatFree = true) :
    stack.Storable (some Numeral.maxDigits) := by
  unfold stackAt at opened
  split at opened
  next =>
    unfold loadStack at opened
    split at opened
    next => exact Stack.storable_of_ofText opened whole
    next => cases opened
    next => cases opened
  next =>
    cases opened
    intro record member
    cases member

end Disk

end FormulaEdit
