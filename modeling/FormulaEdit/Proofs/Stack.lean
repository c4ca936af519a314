import FormulaEdit.Proofs.Json.RoundTrip
import FormulaEdit.Stack

/-!
# Saved stacks

A stack is saved as a JSON text.  Reading it gives the stack back, provided
that the parameters of its records can be written exactly; actions and
conditions always can.  A reader with a limit gives it back too, if the
integers in it have no more digits.
-/

namespace FormulaEdit

namespace Condition

theorem exact_toJson (condition : Condition) : condition.toJson.Exact := by
  induction condition with
  | always => exact .obj (by simp) (by simp [Json.Exact.str])
  | tokenIs token =>
      exact .obj (by simp) (by simp [Json.Exact.str])
  | depthIs depth =>
      exact .obj (by simp) (by simp [Json.Exact.str, Json.Exact.int])
  | flagIs flag value =>
      exact .obj (by simp) (by simp [Json.Exact.str, Json.Exact.bool])
  | both first second firstExact secondExact =>
      exact .obj (by simp)
        (by simp [Json.Exact.str, firstExact, secondExact])

theorem fits_toJson (limit : Option Nat) (condition : Condition) :
    condition.toJson.fits limit = condition.fits limit := by
  unfold Json.fits
  induction condition with
  | both first second firstFits secondFits =>
      simp [toJson, fits, Json.everyLeaf, Json.everyMemberLeaf, firstFits,
        secondFits]
  | _ => simp [toJson, fits, Json.everyLeaf, Json.everyMemberLeaf]

theorem ofJson_toJson (condition : Condition) :
    ofJson condition.toJson = .ok condition := by
  induction condition with
  | always => rfl
  | tokenIs token => rfl
  | depthIs depth => rfl
  | flagIs flag value => cases flag <;> rfl
  | both first second firstBack secondBack =>
      let members : Json.Members := [("kind", .str "and"),
        ("left", first.toJson), ("right", second.toJson)]
      have kind : kindOf members = .ok .both := rfl
      have left : ofMember "left" members = some (.ok first) := by
        simp [members, ofMember, firstBack]
      have right : ofMember "right" members = some (.ok second) := by
        simp [members, ofMember, secondBack]
      show ofJson (.obj members) = .ok (.both first second)
      rw [ofJson, kind]
      simp only [bind, Except.bind, left, right]
      rfl

end Condition

namespace Record

theorem exact_toJson {record : Record}
    (params : (Json.obj record.params).Exact) : record.toJson.Exact := by
  have condition := record.condition.exact_toJson
  exact .obj (by simp) (by simp [Json.Exact.str, params, condition])

theorem fits_toJson_iff {limit : Option Nat} {record : Record} :
    record.toJson.fits limit = true ↔
      (Json.obj record.params).fits limit = true ∧
        record.condition.fits limit = true := by
  rw [← record.condition.fits_toJson]
  simp [toJson, Json.fits, Json.everyLeaf, Json.everyMemberLeaf]

theorem ofJson_toJson (record : Record) :
    ofJson record.toJson = .ok record := by
  let members : Json.Members := [("action", .str record.action.name),
    ("params", .obj record.params), ("condition", record.condition.toJson)]
  have action : readAction members = .ok record.action := by
    apply Result.bind_eq_ok_iff.mpr
    exact ⟨some record.action, congrArg Except.ok (by simp), rfl⟩
  have params : readParams members = .ok record.params := rfl
  have condition : readCondition record.action members =
      .ok record.condition := by
    have found : members.get? "condition" = some record.condition.toJson :=
      rfl
    rw [readCondition, found]
    simp only [Condition.ofJson_toJson]
  show ofJson (.obj members) = .ok record
  rw [ofJson, action]
  simp only [bind, Except.bind, params, condition]
  rfl

theorem mapM_ofJson_toJson (records : List Record) :
    (records.map toJson).mapM ofJson = .ok records := by
  induction records with
  | nil => rfl
  | cons record records induction =>
      rw [List.map_cons, List.mapM_cons, ofJson_toJson, induction]
      rfl

end Record

namespace Stack

theorem exact_toJson {stack : Stack}
    (params : ∀ record ∈ stack.records, (Json.obj record.params).Exact) :
    stack.toJson.Exact := by
  apply Json.Exact.arr
  intro item member
  obtain ⟨record, inside, rfl⟩ := List.mem_map.mp member
  exact Record.exact_toJson (params record inside)

theorem fits_toJson_iff {limit : Option Nat} {stack : Stack} :
    stack.toJson.fits limit = true ↔ ∀ record ∈ stack.records,
      (Json.obj record.params).fits limit = true ∧
        record.condition.fits limit = true := by
  simp only [← Record.fits_toJson_iff]
  exact Json.everyLeaf_arr.trans List.forall_mem_map

theorem ofJson_toJson (stack : Stack) : ofJson stack.toJson = .ok stack := by
  rw [toJson, ofJson, Record.mapM_ofJson_toJson]
  rfl

theorem ofText_text {limit : Option Nat} {stack : Stack}
    (exact : stack.toJson.Exact) (fits : stack.toJson.fits limit = true) :
    ofText limit stack.text = .ok stack := by
  rw [ofText, text, Json.read_indented exact fits]
  exact stack.ofJson_toJson

end Stack

/-- A saved stack is read back as it was, if its parameters have neither
floating-point numbers nor repeated keys.  A reader with a limit needs integers
that have no more digits. -/
theorem saved_stack_read_back {stack : Stack}
    (params : ∀ record ∈ stack.records, (Json.obj record.params).Exact) :
    Stack.ofText none stack.text = .ok stack ∧
    ∀ limit, stack.toJson.fits limit = true →
      Stack.ofText limit stack.text = .ok stack := by
  have exact := Stack.exact_toJson params
  exact ⟨Stack.ofText_text exact exact.fits_none,
    fun limit fits => Stack.ofText_text exact fits⟩

/-- Two records with escapes of every kind, a pair of units, a large negative
number, empty containers and a conjunction inside another one. -/
theorem saved_stack_read_back_escapes : ∃ stack : Stack,
    stack.records.map Record.action = [.replace, .squashNegation] ∧
    stack.records.map Record.params =
      [[("source", .str "a\"\\/\n\t\x01\x7fé\u2028𝄞"),
        ("𝄞\x08", .obj [("", .int (-123456789012345678901234567890)),
          ("[]", .arr [.null, .bool true, .int 0, .arr [], .obj []])])],
        []] ∧
    stack.records.map Record.condition =
      [.both (.both (.tokenIs "\x0c\x7d") (.depthIs (-7)))
        (.flagIs .bracketed false), .always] ∧
    (∀ record ∈ stack.records, (Json.obj record.params).Exact) ∧
    Stack.ofText none stack.text = .ok stack ∧
    Stack.ofText (some 30) stack.text = .ok stack := by
  let params : Json.Members :=
    [("source", .str "a\"\\/\n\t\x01\x7fé\u2028𝄞"),
      ("𝄞\x08", .obj [("", .int (-123456789012345678901234567890)),
        ("[]", .arr [.null, .bool true, .int 0, .arr [], .obj []])])]
  let stack : Stack := { records := [
    { action := .replace, params := params
      condition := .both (.both (.tokenIs "\x0c\x7d") (.depthIs (-7)))
        (.flagIs .bracketed false) },
    { action := .squashNegation }] }
  have items : ∀ item ∈ [Json.null, .bool true, .int 0, .arr [], .obj []],
      item.Exact := by
    simp [Json.Exact.null, Json.Exact.bool, Json.Exact.int,
      Json.Exact.arr, Json.Exact.obj]
  have exact : (Json.obj params).Exact := by
    refine .obj (by decide) ?_
    simp [params, Json.Exact.str, Json.Exact.int, Json.Exact.arr items,
      Json.Exact.obj]
  have every : ∀ record ∈ stack.records,
      (Json.obj record.params).Exact := by
    simp [stack, exact, Json.Exact.obj]
  obtain ⟨unlimited, limited⟩ := saved_stack_read_back every
  exact ⟨stack, rfl, rfl, rfl, every, unlimited, limited _ (by decide +kernel)⟩

end FormulaEdit
