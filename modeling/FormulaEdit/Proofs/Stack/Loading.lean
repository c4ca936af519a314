import FormulaEdit.Proofs.Json.Limit
import FormulaEdit.Stack

/-!
# Loading stacks

A stack comes from outside, so every value in it is looked at before it is
used.  `RecordedAs` says which JSON values stand for a condition or a record.
A text is loaded exactly when it is an array of such values.  Everything else
is reported as a fault of the stack, with two exceptions that end the program:
an array or an object in the place of a rule's name, and a whole number with
more digits than the reader's limit.  The reader is assumed to go down into
values nested to any depth.
-/

namespace FormulaEdit

/-! ## Names of flags -/

namespace Decimal

theorem notMem_toDigits (number : Nat) : 's' ∉ Nat.toDigits 10 number := by
  intro member
  have digit := Json.isDigit_of_mem_toDigits member
  exact absurd digit (by decide)

theorem notMem_shortest (mantissa : Nat) (exponent : Int) :
    's' ∉ (shortest mantissa exponent).digits := by
  intro member
  have kept := List.mem_reverse.mp member
  have trailing := (List.dropWhile_sublist _).subset kept
  exact notMem_toDigits _ (List.mem_reverse.mp trailing)

theorem notMem_exponentText (exponent : Int) :
    's' ∉ exponentText exponent := by
  have absent := notMem_toDigits exponent.natAbs
  unfold exponentText
  grind

theorem Digits.notMem_text {decimal : Digits}
    (absent : 's' ∉ decimal.digits) : 's' ∉ decimal.text := by
  have taken : ∀ count, 's' ∉ decimal.digits.take count :=
    fun count member => absent (List.mem_of_mem_take member)
  have dropped : ∀ count, 's' ∉ decimal.digits.drop count :=
    fun count member => absent (List.mem_of_mem_drop member)
  have exponent := notMem_exponentText (decimal.point - 1)
  unfold Digits.text
  grind

end Decimal

/-- Only a string can be shown with the letter first that the names of flags
start with. -/
theorem Json.head?_display {value : Json}
    (other : ∀ text, value ≠ .str text) :
    value.display.toList.head? ≠ some 's' := by
  cases value with
  | null => decide
  | bool value => cases value <;> decide
  | int value =>
      obtain ⟨c, others, digit, shown | shown⟩ := exists_toString value
      · rw [display, shown]
        simpa using ne_of_isDigit digit 's' (by decide)
      · rw [display, shown]
        simp
  | float value =>
      have absent : 's' ∉ value.text displayNames := by
        cases value with
        | finite negative mantissa exponent =>
            have digits := Decimal.Digits.notMem_text
              (Decimal.notMem_shortest mantissa exponent)
            unfold Decimal.Binary64.text
            grind
        | infinite negative => cases negative <;> decide
        | undefined => decide
      intro first
      rw [display, String.toList_ofList] at first
      exact absent (List.mem_of_mem_head? first)
  | str value => exact absurd rfl (other value)
  | arr items => simp [display]
  | obj members => simp [display]

namespace Flag

theorem ofName?_eq_some_iff {name : String} {flag : Flag} :
    ofName? name = some flag ↔ name = flag.name := by
  constructor
  · intro found
    unfold ofName? at found
    grind [Flag.name]
  · rintro rfl
    exact ofName?_name flag

theorem plainText_eq_name_iff {value : Json} {flag : Flag} :
    value.plainText = flag.name ↔ value = .str flag.name := by
  constructor
  · intro same
    by_cases text : ∃ text, value = .str text
    · obtain ⟨text, rfl⟩ := text
      exact congrArg Json.str same
    · have other := not_exists.mp text
      have shown : value.plainText = value.display := by
        cases value with
        | str value => exact absurd rfl (other value)
        | _ => rfl
      have first : flag.name.toList.head? = some 's' := by
        cases flag <;> rfl
      rw [← same, shown] at first
      exact absurd first (Json.head?_display other)
  · rintro rfl
    rfl

end Flag

/-! ## Recorded conditions -/

namespace Condition

/-- The name of a kind of recorded conditions. -/
def Kind.name : Kind → String
  | .always => "always"
  | .token => "token"
  | .depth => "depth"
  | .flag => "flag"
  | .both => "and"

/-- The objects that stand for a condition. -/
inductive RecordedAs : Condition → Json → Prop where
  | always {members : Json.Members}
      (kind : members.get? "kind" = some (.str "always")) :
      RecordedAs .always (.obj members)
  | tokenIs {members : Json.Members} {token : String}
      (kind : members.get? "kind" = some (.str "token"))
      (value : members.get? "value" = some (.str token)) :
      RecordedAs (.tokenIs token) (.obj members)
  | depthIs {members : Json.Members} {depth : Int}
      (kind : members.get? "kind" = some (.str "depth"))
      (value : members.get? "value" = some (.int depth)) :
      RecordedAs (.depthIs depth) (.obj members)
  | flagIs {members : Json.Members} {flag : Flag} {set : Bool}
      (kind : members.get? "kind" = some (.str "flag"))
      (name : members.get? "flag" = some (.str flag.name))
      (value : members.get? "value" = some (.bool set)) :
      RecordedAs (.flagIs flag set) (.obj members)
  | both {members : Json.Members} {left right : Json}
      {first second : Condition}
      (kind : members.get? "kind" = some (.str "and"))
      (leftFound : members.get? "left" = some left)
      (rightFound : members.get? "right" = some right)
      (leftRecorded : RecordedAs first left)
      (rightRecorded : RecordedAs second right) :
      RecordedAs (.both first second) (.obj members)

theorem Kind.ofName?_eq_some_iff {name : String} {kind : Kind} :
    ofName? name = some kind ↔ name = kind.name := by
  constructor
  · intro found
    unfold ofName? at found
    grind [Kind.name]
  · rintro rfl
    cases kind <;> decide

theorem kindOf_eq_ok_iff {members : Json.Members} {kind : Kind} :
    kindOf members = .ok kind ↔
      members.get? "kind" = some (.str kind.name) := by
  unfold kindOf
  cases found : members.get? "kind" with
  | none => simp
  | some value =>
      cases value with
      | str name =>
          have named := @Kind.ofName?_eq_some_iff name kind
          cases known : Kind.ofName? name <;> simp_all
      | _ => simp

theorem needed_eq_ok_iff {members : Json.Members} {key : String}
    {value : Json} :
    needed members key = .ok value ↔ members.get? key = some value := by
  unfold needed
  cases members.get? key <;> simp

theorem ofMember_eq (name : String) (members : Json.Members) :
    ofMember name members = (members.get? name).map ofJson := by
  induction members with
  | nil => rfl
  | cons member rest induction =>
      obtain ⟨key, value⟩ := member
      rw [ofMember, Json.Members.get?]
      split
      · rfl
      · exact induction

theorem readToken_eq_ok_iff {members : Json.Members}
    {condition : Condition} :
    readToken members = .ok condition ↔
      ∃ token, members.get? "value" = some (.str token) ∧
        condition = .tokenIs token := by
  simp only [readToken, Result.bind_eq_ok_iff, needed_eq_ok_iff]
  constructor
  · rintro ⟨value, found, read⟩
    cases value with
    | str token =>
        cases read
        exact ⟨token, found, rfl⟩
    | _ => cases read
  · rintro ⟨token, found, rfl⟩
    exact ⟨_, found, rfl⟩

theorem readDepth_eq_ok_iff {members : Json.Members}
    {condition : Condition} :
    readDepth members = .ok condition ↔
      ∃ depth, members.get? "value" = some (.int depth) ∧
        condition = .depthIs depth := by
  simp only [readDepth, Result.bind_eq_ok_iff, needed_eq_ok_iff]
  constructor
  · rintro ⟨value, found, read⟩
    cases value with
    | int depth =>
        cases read
        exact ⟨depth, found, rfl⟩
    | _ => cases read
  · rintro ⟨depth, found, rfl⟩
    exact ⟨_, found, rfl⟩

theorem readFlag_eq_ok_iff {members : Json.Members} {condition : Condition} :
    readFlag members = .ok condition ↔
      ∃ flag set, members.get? "flag" = some (.str flag.name) ∧
        members.get? "value" = some (.bool set) ∧
        condition = .flagIs flag set := by
  simp only [readFlag, Result.bind_eq_ok_iff, needed_eq_ok_iff]
  constructor
  · rintro ⟨value, found, read⟩
    cases value with
    | bool set =>
        obtain ⟨name, named, rest⟩ := Result.bind_eq_ok_iff.mp read
        rw [needed_eq_ok_iff] at named
        split at rest
        next flag known =>
            cases rest
            have same := Flag.ofName?_eq_some_iff.mp known
            rw [Flag.plainText_eq_name_iff.mp same] at named
            exact ⟨flag, set, named, found, rfl⟩
        next => cases rest
    | _ => cases read
  · rintro ⟨flag, set, named, found, rfl⟩
    refine ⟨.bool set, found, ?_⟩
    apply Result.bind_eq_ok_iff.mpr
    refine ⟨_, needed_eq_ok_iff.mpr named, ?_⟩
    rw [Json.plainText, Flag.ofName?_name]
    rfl

theorem ofJson_cases {value : Json} {condition : Condition}
    (read : ofJson value = .ok condition) :
    condition.RecordedAs value ∨
      ∃ (members : Json.Members) (left right : Json)
        (first second : Condition), value = .obj members ∧
        members.get? "kind" = some (.str "and") ∧
        members.get? "left" = some left ∧
        members.get? "right" = some right ∧
        ofJson left = .ok first ∧ ofJson right = .ok second ∧
        condition = .both first second := by
  cases value with
  | obj members =>
      rw [ofJson] at read
      obtain ⟨kind, kindFound, rest⟩ := Result.bind_eq_ok_iff.mp read
      have named := kindOf_eq_ok_iff.mp kindFound
      cases kind with
      | always =>
          cases rest
          exact .inl (.always named)
      | token =>
          obtain ⟨token, found, rfl⟩ := readToken_eq_ok_iff.mp rest
          exact .inl (.tokenIs named found)
      | depth =>
          obtain ⟨depth, found, rfl⟩ := readDepth_eq_ok_iff.mp rest
          exact .inl (.depthIs named found)
      | flag =>
          obtain ⟨flag, set, name, found, rfl⟩ := readFlag_eq_ok_iff.mp rest
          exact .inl (.flagIs named name found)
      | both =>
          simp only [ofMember_eq] at rest
          cases leftFound : Json.Members.get? members "left" with
          | none => simp [leftFound] at rest
          | some left =>
              simp only [leftFound, Option.map_some] at rest
              obtain ⟨first, firstRead, rest⟩ := Result.bind_eq_ok_iff.mp rest
              cases rightFound : Json.Members.get? members "right" with
              | none => simp [rightFound] at rest
              | some right =>
                  simp only [rightFound, Option.map_some] at rest
                  obtain ⟨second, secondRead, made⟩ :=
                    Result.bind_eq_ok_iff.mp rest
                  cases made
                  exact .inr ⟨members, left, right, first, second, rfl, named,
                    leftFound, rightFound, firstRead, secondRead, rfl⟩
  | _ => simp [ofJson] at read

theorem recordedAs_of_ofJson {value : Json} {condition : Condition}
    (read : ofJson value = .ok condition) : condition.RecordedAs value := by
  induction condition generalizing value with
  | both first second firstRecorded secondRecorded =>
      rcases ofJson_cases read with
        recorded | ⟨_, _, _, _, _, rfl, kind, left, right, firstRead,
          secondRead, same⟩
      · exact recorded
      · cases same
        exact .both kind left right (firstRecorded firstRead)
          (secondRecorded secondRead)
  | _ =>
      rcases ofJson_cases read with
        recorded | ⟨_, _, _, _, _, _, _, _, _, _, _, same⟩
      · exact recorded
      · cases same

/-- A condition is read from the values that stand for it and no others. -/
theorem ofJson_eq_ok_iff {value : Json} {condition : Condition} :
    ofJson value = .ok condition ↔ condition.RecordedAs value := by
  refine ⟨recordedAs_of_ofJson, ?_⟩
  intro recorded
  induction recorded with
  | always kind =>
      rw [ofJson, (@kindOf_eq_ok_iff _ .always).mpr kind]
      rfl
  | tokenIs kind value =>
      rw [ofJson, (@kindOf_eq_ok_iff _ .token).mpr kind]
      exact readToken_eq_ok_iff.mpr ⟨_, value, rfl⟩
  | depthIs kind value =>
      rw [ofJson, (@kindOf_eq_ok_iff _ .depth).mpr kind]
      exact readDepth_eq_ok_iff.mpr ⟨_, value, rfl⟩
  | flagIs kind name value =>
      rw [ofJson, (@kindOf_eq_ok_iff _ .flag).mpr kind]
      exact readFlag_eq_ok_iff.mpr ⟨_, _, name, value, rfl⟩
  | both kind leftFound rightFound _ _ firstRead secondRead =>
      rw [ofJson, (@kindOf_eq_ok_iff _ .both).mpr kind]
      simp only [bind, Except.bind, ofMember_eq, leftFound, rightFound,
        Option.map_some, firstRead, secondRead]
      rfl

end Condition

/-! ## Recorded rules -/

namespace Action

theorem ofName?_eq_some_iff {name : String} {action : Action} :
    ofName? name = some action ↔ name = action.name := by
  constructor
  · intro found
    have named := List.find?_some found
    exact (beq_iff_eq.mp named).symm
  · rintro rfl
    exact ofName?_name action

end Action

/-- Whether a value is an array or an object. -/
def Json.isContainer : Json → Bool
  | .arr _ => true
  | .obj _ => true
  | _ => false

namespace Record

/-- The objects that stand for a record.  The parameters and the condition may
be missing. -/
inductive RecordedAs (record : Record) : Json → Prop where
  | object {members : Json.Members}
      (action : members.get? "action" = some (.str record.action.name))
      (params : members.get? "params" = some (.obj record.params) ∨
        members.get? "params" = none ∧ record.params = [])
      (condition :
        (∃ value, members.get? "condition" = some value ∧
          record.condition.RecordedAs value) ∨
        members.get? "condition" = none ∧ record.condition = .always) :
      RecordedAs record (.obj members)

/-- An object has an array or an object in the place of a rule's name. -/
inductive Misnamed (name : Json) : Json → Prop where
  | object {members : Json.Members}
      (action : members.get? "action" = some name)
      (container : name.isContainer = true) : Misnamed name (.obj members)

theorem readAction_cases (members : Json.Members) :
    (∃ action, readAction members = .ok action ∧
      members.get? "action" = some (.str action.name)) ∨
    (∃ cause, readAction members = .error (.stack cause)) ∨
    ∃ name, readAction members = .error (.structuredAction name) ∧
      members.get? "action" = some name ∧ name.isContainer = true := by
  unfold readAction
  cases found : members.get? "action" with
  | none => exact .inr (.inl ⟨_, rfl⟩)
  | some value =>
      cases value with
      | str name =>
          cases known : Action.ofName? name with
          | none =>
              right
              left
              exact ⟨.unknownAction (.str name), by
                simp [Action.ofJson?, known, bind, Except.bind]⟩
          | some action =>
              left
              refine ⟨action, ?_, ?_⟩
              · simp [Action.ofJson?, known, bind, Except.bind, pure,
                  Except.pure]
              · rw [Action.ofName?_eq_some_iff.mp known]
      | arr items => exact .inr (.inr ⟨_, rfl, rfl, rfl⟩)
      | obj inner => exact .inr (.inr ⟨_, rfl, rfl, rfl⟩)
      | _ => exact .inr (.inl ⟨_, rfl⟩)

theorem readAction_eq_ok_iff {members : Json.Members} {action : Action} :
    readAction members = .ok action ↔
      members.get? "action" = some (.str action.name) := by
  constructor
  · intro read
    rcases readAction_cases members with
      ⟨found, again, named⟩ | ⟨cause, failed⟩ | ⟨name, failed, _⟩
    · rw [read] at again
      cases again
      exact named
    · rw [read] at failed
      cases failed
    · rw [read] at failed
      cases failed
  · intro named
    simp [readAction, named, Action.ofJson?, bind, Except.bind, pure,
      Except.pure]

theorem readParams_eq_ok_iff {members params : Json.Members} :
    readParams members = .ok params ↔
      members.get? "params" = some (.obj params) ∨
        members.get? "params" = none ∧ params = [] := by
  unfold readParams
  cases members.get? "params" with
  | none => simp [eq_comm]
  | some value => cases value <;> simp

theorem readCondition_eq_ok_iff {action : Action} {members : Json.Members}
    {condition : Condition} :
    readCondition action members = .ok condition ↔
      (∃ value, members.get? "condition" = some value ∧
        condition.RecordedAs value) ∨
      members.get? "condition" = none ∧ condition = .always := by
  unfold readCondition
  cases members.get? "condition" with
  | none => simp [eq_comm]
  | some value =>
      simp only [Option.some.injEq, reduceCtorEq, false_and, or_false,
        exists_eq_left', ← Condition.ofJson_eq_ok_iff]
      cases Condition.ofJson value <;> simp

theorem ofJson_eq_ok_iff {value : Json} {record : Record} :
    ofJson value = .ok record ↔ record.RecordedAs value := by
  constructor
  · intro read
    cases value with
    | obj members =>
        obtain ⟨action, actionRead, rest⟩ := Result.bind_eq_ok_iff.mp read
        obtain ⟨params, paramsRead, rest⟩ := Result.bind_eq_ok_iff.mp rest
        obtain ⟨condition, conditionRead, made⟩ :=
          Result.bind_eq_ok_iff.mp rest
        cases made
        exact .object (readAction_eq_ok_iff.mp actionRead)
          (readParams_eq_ok_iff.mp paramsRead)
          (readCondition_eq_ok_iff.mp conditionRead)
    | _ => cases read
  · intro recorded
    cases recorded with
    | object action params condition =>
        apply Result.bind_eq_ok_iff.mpr
        refine ⟨_, readAction_eq_ok_iff.mpr action, ?_⟩
        apply Result.bind_eq_ok_iff.mpr
        refine ⟨_, readParams_eq_ok_iff.mpr params, ?_⟩
        apply Result.bind_eq_ok_iff.mpr
        exact ⟨_, readCondition_eq_ok_iff.mpr condition, rfl⟩

theorem readParams_eq_error {members : Json.Members} {failure : Failure}
    (failed : readParams members = .error failure) :
    ∃ cause, failure = .stack cause := by
  unfold readParams at failed
  split at failed
  · cases failed
  · cases failed
    exact ⟨_, rfl⟩

theorem readCondition_eq_error {action : Action} {members : Json.Members}
    {failure : Failure} (failed : readCondition action members = .error failure) :
    ∃ cause, failure = .stack cause := by
  unfold readCondition at failed
  split at failed
  · cases failed
  · split at failed
    · cases failed
    · cases failed
      exact ⟨_, rfl⟩

/-- A value that is no record is a fault of the stack, unless a container
stands in the place of the name. -/
theorem ofJson_eq_error {value : Json} {failure : Failure}
    (failed : ofJson value = .error failure) :
    (∃ cause, failure = .stack cause) ∨
      ∃ name, failure = .structuredAction name ∧ Misnamed name value := by
  cases value with
  | obj members =>
      rw [ofJson, Result.bind_eq_error_iff] at failed
      rcases failed with actionFailed | ⟨action, _, rest⟩
      · rcases readAction_cases members with
          ⟨action, read, _⟩ | ⟨cause, read⟩ | ⟨name, read, found, container⟩
        · rw [read] at actionFailed
          cases actionFailed
        · rw [read] at actionFailed
          cases actionFailed
          exact .inl ⟨cause, rfl⟩
        · rw [read] at actionFailed
          cases actionFailed
          exact .inr ⟨name, rfl, .object found container⟩
      left
      rcases Result.bind_eq_error_iff.mp rest with
        paramsFailed | ⟨params, _, rest⟩
      · exact readParams_eq_error paramsFailed
      rcases Result.bind_eq_error_iff.mp rest with
        conditionFailed | ⟨condition, _, made⟩
      · exact readCondition_eq_error conditionFailed
      · cases made
  | _ =>
      cases failed
      exact .inl ⟨_, rfl⟩

theorem ofJson_of_misnamed {name value : Json}
    (misnamed : Misnamed name value) :
    ofJson value = .error (.structuredAction name) := by
  cases misnamed with
  | object action container =>
      apply Result.bind_eq_error_iff.mpr
      left
      cases name with
      | arr items => simp [readAction, action, Action.ofJson?, bind, Except.bind]
      | obj inner => simp [readAction, action, Action.ofJson?, bind, Except.bind]
      | _ => cases container

end Record

/-! ## Whole stacks -/

namespace Stack

variable {limit : Option Nat} {text : String}

theorem ofText_eq_ok_iff {stack : Stack} :
    ofText limit text = .ok stack ↔
      ∃ items, Json.read limit text = .ok (.arr items) ∧
        List.Forall₂ Record.RecordedAs stack.records items := by
  have each : ∀ items, items.mapM Record.ofJson = .ok stack.records ↔
      List.Forall₂ Record.RecordedAs stack.records items := by
    intro items
    simp only [Result.mapM_eq_ok_iff, Record.ofJson_eq_ok_iff]
  unfold ofText
  cases Json.read limit text with
  | error refusal => cases refusal <;> simp
  | ok value =>
      cases value with
      | arr items =>
          simp only [ofJson, Result.bind_eq_ok_iff, Except.ok.injEq,
            Json.arr.injEq, exists_eq_left', ← each]
          constructor
          · rintro ⟨records, read, made⟩
            cases made
            exact read
          · intro read
            exact ⟨stack.records, read, rfl⟩
      | _ => simp [ofJson]

/-- A text fails as a fault of the stack, at a number beyond the limit, or at
its first entry that is no recorded rule. -/
theorem ofText_eq_error {failure : Failure}
    (failed : ofText limit text = .error failure) :
    (∃ cause, failure = .stack cause) ∨
      (∃ digits, Json.read limit text = .error (.oversized digits) ∧
        failure = .oversized digits) ∨
      ∃ items, Json.read limit text = .ok (.arr items) ∧
        items.mapM Record.ofJson = .error failure := by
  unfold ofText at failed
  split at failed
  next value read =>
    cases value with
    | arr items =>
        rcases Result.bind_eq_error_iff.mp failed with
          inside | ⟨records, _, made⟩
        · exact .inr (.inr ⟨items, read, inside⟩)
        · cases made
    | _ =>
        cases failed
        exact .inl ⟨_, rfl⟩
  next =>
    cases failed
    exact .inl ⟨_, rfl⟩
  next digits stopped =>
    cases failed
    exact .inr (.inl ⟨digits, stopped, rfl⟩)

theorem mapM_eq_error {items : List Json} {failure : Failure}
    (failed : items.mapM Record.ofJson = .error failure) :
    (∃ cause, failure = .stack cause) ∨
      ∃ name before item after, failure = .structuredAction name ∧
        items = before ++ item :: after ∧
        (∀ entry ∈ before, ∃ record : Record, record.RecordedAs entry) ∧
        Record.Misnamed name item := by
  obtain ⟨before, item, after, same, earlier, itemFailed⟩ :=
    Result.mapM_eq_error_iff.mp failed
  simp only [Record.ofJson_eq_ok_iff] at earlier
  rcases Record.ofJson_eq_error itemFailed with
    reported | ⟨name, named, misnamed⟩
  · exact .inl reported
  · exact .inr ⟨name, before, item, after, named, same, earlier, misnamed⟩

theorem ofText_eq_structuredAction_iff {name : Json} :
    ofText limit text = .error (.structuredAction name) ↔
      ∃ before item after,
        Json.read limit text = .ok (.arr (before ++ item :: after)) ∧
        (∀ entry ∈ before, ∃ record : Record, record.RecordedAs entry) ∧
        Record.Misnamed name item := by
  constructor
  · intro failed
    rcases ofText_eq_error failed with
      ⟨cause, other⟩ | ⟨digits, _, other⟩ | ⟨items, read, inside⟩
    · cases other
    · cases other
    rcases mapM_eq_error inside with
      ⟨cause, other⟩ | ⟨found, before, item, after, same, rfl, earlier, misnamed⟩
    · cases other
    · cases same
      exact ⟨before, item, after, read, earlier, misnamed⟩
  · rintro ⟨before, item, after, read, earlier, misnamed⟩
    have inside : (before ++ item :: after).mapM Record.ofJson =
        .error (.structuredAction name) := by
      apply Result.mapM_eq_error_iff.mpr
      refine ⟨before, item, after, rfl, ?_, Record.ofJson_of_misnamed misnamed⟩
      simpa only [Record.ofJson_eq_ok_iff] using earlier
    unfold ofText
    rw [read]
    exact Result.bind_eq_error_iff.mpr (.inl inside)

theorem ofText_eq_oversized_iff {digits : Nat} :
    ofText limit text = .error (.oversized digits) ↔
      Json.read limit text = .error (.oversized digits) := by
  constructor
  · intro failed
    rcases ofText_eq_error failed with
      ⟨cause, other⟩ | ⟨found, stopped, same⟩ | ⟨items, _, inside⟩
    · cases other
    · cases same
      exact stopped
    rcases mapM_eq_error inside with ⟨cause, other⟩ | ⟨_, _, _, _, other, _⟩
    · cases other
    · cases other
  · intro stopped
    rw [ofText, stopped]

end Stack

/-- Loading a text gives a stack exactly when the text is an array of recorded
rules, which are then those of the stack.  A failure is a fault of the stack,
except when the first entry that is no recorded rule has a container in the
place of its rule's name, and when the reader stops at a whole number beyond
the limit.  It stops only where a run of digits is longer than the limit, never
reads a value with an integer that is, and reads every other text as the reader
without a limit does. -/
theorem stack_loaded_or_reported (limit : Option Nat) (text : String) :
    (∀ stack, Stack.ofText limit text = .ok stack ↔
      ∃ items, Json.read limit text = .ok (.arr items) ∧
        List.Forall₂ Record.RecordedAs stack.records items) ∧
    (∀ name, Stack.ofText limit text = .error (.structuredAction name) ↔
      ∃ before item after,
        Json.read limit text = .ok (.arr (before ++ item :: after)) ∧
        (∀ entry ∈ before, ∃ record : Record, record.RecordedAs entry) ∧
        Record.Misnamed name item) ∧
    (∀ digits, Stack.ofText limit text = .error (.oversized digits) ↔
      Json.read limit text = .error (.oversized digits)) ∧
    (∀ failure, Stack.ofText limit text = .error failure →
      (∃ cause, failure = .stack cause) ∨
        (∃ name, failure = .structuredAction name) ∨
        ∃ digits, failure = .oversized digits) ∧
    (Json.read limit text = Json.read none text ∨
      ∃ digits, Json.read limit text = .error (.oversized digits)) ∧
    (∀ digits, Json.read limit text = .error (.oversized digits) →
      Numeral.exceeds limit digits = true ∧
        Json.HasRun text.toList digits) ∧
    ∀ value, Json.read none text = .ok value → value.fits limit = false →
      ∃ digits, Json.read limit text = .error (.oversized digits) := by
  refine ⟨fun stack => Stack.ofText_eq_ok_iff,
    fun name => Stack.ofText_eq_structuredAction_iff,
    fun digits => Stack.ofText_eq_oversized_iff, ?_, ?_, ?_,
    fun value => Json.oversized_of_not_fits⟩
  · intro failure failed
    rcases Stack.ofText_eq_error failed with
      reported | ⟨digits, _, same⟩ | ⟨items, _, inside⟩
    · exact .inl reported
    · exact .inr (.inr ⟨digits, same⟩)
    rcases Stack.mapM_eq_error inside with reported | ⟨name, _, _, _, same, _⟩
    · exact .inl reported
    · exact .inr (.inl ⟨name, same⟩)
  · rcases Json.read_cases limit text with ⟨same, _⟩ | ⟨digits, stopped, _⟩
    · exact .inl same
    · exact .inr ⟨digits, stopped⟩
  · intro digits failed
    rcases Json.read_cases limit text with
      ⟨_, never⟩ | ⟨found, stopped, long, run⟩
    · exact absurd failed (never digits)
    · rw [failed] at stopped
      cases stopped
      exact ⟨long, run⟩

theorem stack_loaded_or_reported_each :
    Stack.ofText (some 3) ("[\x7b\"action\": \"move\", \"condition\": " ++
        "\x7b\"kind\": \"depth\", \"value\": 200\x7d\x7d]") =
      .ok ⟨[⟨.move, [], .depthIs 200⟩]⟩ ∧
    Stack.ofText (some 3)
        "[\x7b\"action\": \"move\"\x7d, \x7b\"action\": \x7b\x7d\x7d, 1]" =
      .error (.structuredAction (.obj [])) ∧
    ∃ digits, Stack.ofText (some 3) "[1, -2000]" = .error (.oversized digits) := by
  refine ⟨?_, ?_, ?_⟩
  · apply ((stack_loaded_or_reported _ _).1 _).mpr
    refine ⟨[.obj [("action", .str "move"), ("condition",
      .obj [("kind", .str "depth"), ("value", .int 200)])]], by cbv, ?_⟩
    refine List.forall₂_cons.mpr ⟨.object rfl (.inr ⟨rfl, rfl⟩) ?_, .nil⟩
    exact .inl ⟨_, rfl, .depthIs rfl rfl⟩
  · apply ((stack_loaded_or_reported _ _).2.1 _).mpr
    refine ⟨[.obj [("action", .str "move")]], .obj [("action", .obj [])],
      [.int 1], by cbv, ?_, .object rfl rfl⟩
    rw [List.forall_mem_singleton]
    exact ⟨⟨.move, [], .always⟩,
      .object rfl (.inr ⟨rfl, rfl⟩) (.inr ⟨rfl, rfl⟩)⟩
  · obtain ⟨_, _, oversized, _, _, _, refused⟩ :=
      stack_loaded_or_reported (some 3) "[1, -2000]"
    obtain ⟨digits, stopped⟩ :=
      refused (.arr [.int 1, .int (-2000)]) (by cbv) (by decide +kernel)
    exact ⟨digits, (oversized digits).mpr stopped⟩

/-- An array in the place of a name is refused, and so is one digit more than
the limit; neither is a fault of the stack. -/
theorem array_action_and_long_number_not_reported :
    Stack.ofText (some Numeral.maxDigits) "[\x7b\"action\": []\x7d]" =
      .error (.structuredAction (.arr [])) ∧
    Stack.ofText (some Numeral.maxDigits) (String.ofList
        ('[' :: (List.replicate (Numeral.maxDigits + 1) '1' ++ ['\n', ']']))) =
      .error (.oversized (Numeral.maxDigits + 1)) ∧
    ∀ failure ∈ [Failure.structuredAction (.arr []),
        .oversized (Numeral.maxDigits + 1)],
      failure.isReported = false ∧ ∀ cause, failure ≠ .stack cause := by
  refine ⟨by cbv, ?_, ?_⟩
  · have stopped := @Json.read_oversized (some Numeral.maxDigits)
      (List.replicate (Numeral.maxDigits + 1) '1') (by simp)
      (fun c member => by rw [List.eq_of_mem_replicate member]; rfl)
      (by simp [List.head?_replicate]) (by simp [Numeral.exceeds])
    rw [List.length_replicate] at stopped
    exact Stack.ofText_eq_oversized_iff.mpr stopped
  · simp [Failure.isReported]

end FormulaEdit
