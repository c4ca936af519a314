import FormulaEdit.Proofs.Json.RoundTrip

/-!
# JSON in files

A reader of files unifies line ends, and what is read may have been written by
someone else.  Neither matters to an exact value: its text has no character
that is changed on the way, and what is read has no key twice and no integer
that goes beyond the limit of the reader.
-/

namespace FormulaEdit

namespace Json

/-! ## What can be read -/

/-- A value in which no object has a key twice and no integer goes beyond a
limit. -/
inductive Readable (limit : Option Nat) : Json → Prop where
  | null : Readable limit .null
  | bool (value : Bool) : Readable limit (.bool value)
  | int {value : Int} (fits : Numeral.fits limit value = true) :
      Readable limit (.int value)
  | float (value : Decimal.Binary64) : Readable limit (.float value)
  | str (value : String) : Readable limit (.str value)
  | arr {items : List Json} (each : ∀ item ∈ items, Readable limit item) :
      Readable limit (.arr items)
  | obj {members : Members} (keys : (members.map Prod.fst).Nodup)
      (each : ∀ member ∈ members, Readable limit member.2) :
      Readable limit (.obj members)

/-- Whether a value has no floating-point numbers. -/
def isFloatFree (value : Json) : Bool :=
  value.everyLeaf fun
    | .float _ => false
    | _ => true

namespace Readable

variable {limit : Option Nat} {value : Json}

theorem exact (readable : value.Readable limit)
    (whole : value.isFloatFree = true) : value.Exact := by
  induction readable with
  | null => exact .null
  | bool value => exact .bool value
  | int => exact .int _
  | float value => cases whole
  | str value => exact .str value
  | arr each induction =>
      have inside := everyLeaf_arr.mp whole
      exact .arr fun item member => induction item member (inside item member)
  | obj keys each induction =>
      have inside := everyLeaf_obj.mp whole
      exact .obj keys fun member held =>
        induction member held (inside member held)

theorem fits (readable : value.Readable limit) :
    value.fits limit = true := by
  induction readable with
  | int fits => exact fits
  | arr each induction => exact everyLeaf_arr.mpr induction
  | obj keys each induction => exact everyLeaf_obj.mpr induction
  | _ => rfl

end Readable

theorem Members.mem_put {members : Members} {name : String} {value : Json}
    {member : String × Json} (inside : member ∈ members.put name value) :
    member ∈ members ∨ member = (name, value) := by
  induction members with
  | nil => exact .inr (List.mem_singleton.mp inside)
  | cons first members induction =>
      obtain ⟨key, old⟩ := first
      unfold Members.put at inside
      split at inside
      next same =>
        subst same
        rcases List.mem_cons.mp inside with rfl | later
        · exact .inr rfl
        · exact .inl (List.mem_cons_of_mem _ later)
      next =>
        rcases List.mem_cons.mp inside with rfl | later
        · exact .inl List.mem_cons_self
        · rcases induction later with there | here
          · exact .inl (List.mem_cons_of_mem _ there)
          · exact .inr here

theorem Members.nodup_put {members : Members}
    (keys : (members.map Prod.fst).Nodup) (name : String) (value : Json) :
    ((members.put name value).map Prod.fst).Nodup := by
  induction members with
  | nil => simp [Members.put]
  | cons first members induction =>
      obtain ⟨key, old⟩ := first
      rw [List.map_cons, List.nodup_cons] at keys
      obtain ⟨fresh, others⟩ := keys
      unfold Members.put
      split
      next => exact List.nodup_cons.mpr ⟨fresh, others⟩
      next different =>
        refine List.nodup_cons.mpr ⟨?_, induction others⟩
        intro member
        obtain ⟨found, inside, same⟩ := List.mem_map.mp member
        rcases Members.mem_put inside with there | rfl
        · exact fresh (List.mem_map.mpr ⟨found, there, same⟩)
        · exact different same.symm

/-- Putting a member gives the value of a repeated key up. -/
theorem Readable.put {limit : Option Nat} {members : Members} {value : Json}
    (readable : (Json.obj members).Readable limit)
    (valueReadable : value.Readable limit) (name : String) :
    (Json.obj (members.put name value)).Readable limit := by
  cases readable with
  | obj keys each =>
      refine .obj (Members.nodup_put keys name value) ?_
      intro member inside
      rcases Members.mem_put inside with there | rfl
      · exact each member there
      · exact valueReadable

section Reading

variable {limit : Option Nat}

theorem readable_of_numberOf {negative : Bool} {whole fraction : List Char}
    {exponent : Option Int} {value : Json} (nonempty : whole ≠ [])
    (every : ∀ c ∈ whole, isDigit c = true)
    (made : numberOf limit negative whole fraction exponent = .ok value) :
    value.Readable limit := by
  unfold numberOf at made
  split at made
  · split at made
    next => cases made
    next short =>
      cases made
      have fits := fits_digitsValue nonempty every (Bool.eq_false_iff.mpr short)
      refine .int ?_
      split
      · rw [Numeral.fits, Int.natAbs_neg]
        exact fits
      · exact fits
  · cases made
    exact .float _

theorem readable_of_readMagnitude? {negative : Bool} {text rest : List Char}
    {value : Json}
    (read : readMagnitude? limit negative text = some (.ok (value, rest))) :
    value.Readable limit := by
  obtain ⟨⟨whole, behind⟩, first, made⟩ := Option.map_eq_some_iff.mp read
  obtain ⟨nonempty, every, _⟩ := readWhole?_eq_some first
  obtain ⟨number, numbered, same⟩ := Result.map_eq_ok_iff.mp made
  cases same
  exact readable_of_numberOf nonempty every numbered

theorem readable_of_readScalar {text rest : List Char} {value : Json}
    (read : readScalar limit text = .ok (value, rest)) :
    value.Readable limit := by
  unfold readScalar at read
  split at read
  case h_7 =>
    split at read
    next found number =>
      subst read
      unfold readNumber? at number
      split at number
      · exact readable_of_readMagnitude? number
      · exact readable_of_readMagnitude? number
    next => cases read
  all_goals
    cases read
    constructor

/-- What the readers give can be read; the members of an object are added to
those before. -/
structure ReadsReadable (limit : Option Nat) (fuel : Nat) : Prop where
  value : ∀ {text value rest}, readValue limit fuel text = .ok (value, rest) →
    value.Readable limit
  items : ∀ {text items rest}, readItems limit fuel text = .ok (items, rest) →
    ∀ item ∈ items, item.Readable limit
  members : ∀ {before text members rest}, (Json.obj before).Readable limit →
    readMembers limit fuel before text = .ok (members, rest) →
    (Json.obj members).Readable limit

section Step

variable {fuel : Nat} (reads : ReadsReadable limit fuel)
include reads

theorem readable_of_readValue {text rest : List Char} {value : Json}
    (read : readValue limit (fuel + 1) text = .ok (value, rest)) :
    value.Readable limit := by
  unfold readValue at read
  split at read
  next zero => cases zero
  next =>
    obtain ⟨found, _, made⟩ := Result.bind_eq_ok_iff.mp read
    cases made
    exact .str _
  next again _ same =>
    cases same
    split at read
    next =>
      cases read
      exact .arr (by simp)
    next =>
      obtain ⟨found, items, made⟩ := Result.bind_eq_ok_iff.mp read
      cases made
      exact .arr (reads.items items)
  next again _ same =>
    cases same
    split at read
    next =>
      cases read
      exact .obj List.nodup_nil (by simp)
    next =>
      obtain ⟨found, members, made⟩ := Result.bind_eq_ok_iff.mp read
      cases made
      exact reads.members (.obj (by simp) (by simp)) members
  next => exact readable_of_readScalar read

theorem readable_of_readItems {text rest : List Char} {items : List Json}
    (read : readItems limit (fuel + 1) text = .ok (items, rest)) :
    ∀ item ∈ items, item.Readable limit := by
  unfold readItems at read
  obtain ⟨⟨item, behind⟩, first, others⟩ := Result.bind_eq_ok_iff.mp read
  have itemReadable := reads.value first
  dsimp only at others
  split at others
  next =>
    cases others
    simpa using itemReadable
  next =>
    obtain ⟨found, later, made⟩ := Result.bind_eq_ok_iff.mp others
    cases made
    exact List.forall_mem_cons.mpr ⟨itemReadable, reads.items later⟩
  next => cases others

theorem readable_of_readMembers {before members : Members}
    {text rest : List Char} (readable : (Json.obj before).Readable limit)
    (read : readMembers limit (fuel + 1) before text = .ok (members, rest)) :
    (Json.obj members).Readable limit := by
  unfold readMembers at read
  split at read
  next zero => cases zero
  next again _ _ same =>
    cases same
    obtain ⟨⟨key, behind⟩, _, named⟩ := Result.bind_eq_ok_iff.mp read
    dsimp only at named
    split at named
    next =>
      obtain ⟨⟨value, left⟩, valued, others⟩ := Result.bind_eq_ok_iff.mp named
      have put := readable.put (reads.value valued) key
      dsimp only at others
      split at others
      next =>
        cases others
        exact put
      next => exact reads.members put others
      next => cases others
    next => cases named
  next => cases read

end Step

theorem readsReadable (fuel : Nat) : ReadsReadable limit fuel := by
  induction fuel with
  | zero =>
      constructor
      · intro text value rest read
        cases read
      · intro text items rest read
        cases read
      · intro before text members rest _ read
        cases read
  | succ fuel induction =>
      exact ⟨readable_of_readValue induction, readable_of_readItems induction,
        readable_of_readMembers induction⟩

theorem readable_of_read {text : String} {value : Json}
    (read : Json.read limit text = .ok value) : value.Readable limit := by
  unfold Json.read at read
  cases chars : readChars limit text.toList with
  | error stop =>
      rw [chars] at read
      cases read
  | ok found =>
      rw [chars] at read
      cases read
      unfold readChars at chars
      split at chars
      next => cases chars
      next =>
        obtain ⟨⟨value, rest⟩, first, made⟩ := Result.bind_eq_ok_iff.mp chars
        dsimp only at made
        split at made
        next =>
          cases made
          exact (readsReadable _).value first
        next => cases made

end Reading

end Json

/-! ## Characters -/

/-- A line feed, or a character that needs no escape in a file. -/
def Json.Plain (c : Char) : Prop :=
  c = '\n' ∨ 0x20 ≤ c.toNat ∧ c.toNat ≤ 0x7e

instance : DecidablePred Json.Plain :=
  fun c => inferInstanceAs (Decidable (c = '\n' ∨ _ ∧ _))

theorem Text.plain_of_mem_hexDigits {width value : Nat} {c : Char}
    (member : c ∈ hexDigits width value) : Json.Plain c := by
  induction width generalizing value with
  | zero => cases member
  | succ width induction =>
      rw [hexDigits, List.mem_append, List.mem_singleton] at member
      rcases member with earlier | rfl
      · exact induction earlier
      · have each : ∀ value < 16, 0x20 ≤ (hexDigit value).toNat ∧
            (hexDigit value).toNat ≤ 0x7e := by decide
        exact .inr (each _ (Nat.mod_lt _ (by decide)))

namespace Json

theorem plain_of_mem_unitEscape {unit : Nat} {c : Char}
    (member : c ∈ unitEscape unit) : Plain c := by
  rw [unitEscape, List.mem_cons, List.mem_cons] at member
  rcases member with rfl | rfl | digit
  · decide
  · decide
  · exact Text.plain_of_mem_hexDigits digit

theorem plain_of_mem_writtenChar {c written : Char}
    (member : written ∈ writtenChar c) : Plain written := by
  have escape : ∀ letter, 0x20 ≤ letter.toNat ∧ letter.toNat ≤ 0x7e →
      written ∈ ['\\', letter] → Plain written := by
    intro letter plain inside
    rcases List.mem_pair.mp inside with rfl | rfl
    · decide
    · exact .inr plain
  by_cases special : c ∈ ['"', '\\', '\n', '\r', '\t', '\x08', '\x0c']
  · simp only [List.mem_cons, List.not_mem_nil, or_false] at special
    rcases special with rfl | rfl | rfl | rfl | rfl | rfl | rfl
    all_goals exact escape _ (by decide) member
  · simp only [List.mem_cons, List.not_mem_nil, or_false, not_or] at special
    simp only [writtenChar, special, if_false] at member
    split at member
    next printable =>
      rw [List.mem_singleton.mp member]
      exact .inr (by simpa using printable)
    next =>
      split at member
      · exact plain_of_mem_unitEscape member
      · rcases List.mem_append.mp member with high | low
        · exact plain_of_mem_unitEscape high
        · exact plain_of_mem_unitEscape low

theorem plain_of_mem_writtenString {text : String} {c : Char}
    (member : c ∈ writtenString text) : Plain c := by
  rw [writtenString] at member
  simp only [List.cons_append, List.mem_cons, List.mem_append,
    List.mem_flatMap, List.not_mem_nil, or_false] at member
  rcases member with rfl | ⟨inner, _, written⟩ | rfl
  · decide
  · exact plain_of_mem_writtenChar written
  · decide

theorem plain_of_mem_newLine {level : Nat} {c : Char}
    (member : c ∈ newLine level) : Plain c := by
  rcases List.mem_cons.mp member with rfl | blank
  · exact .inl rfl
  · rw [List.eq_of_mem_replicate blank]
    decide

theorem plain_of_mem_toString {value : Int} {c : Char}
    (member : c ∈ (toString value).toList) : Plain c := by
  have digits : ∀ number, c ∈ Nat.toDigits 10 number → Plain c := by
    intro number digit
    have small := isDigit_of_mem_toDigits digit
    simp only [isDigit, Bool.and_eq_true, decide_eq_true_eq] at small
    exact .inr (by omega)
  rw [toList_toString] at member
  split at member
  · exact digits _ member
  · rcases List.mem_cons.mp member with rfl | digit
    · decide
    · exact digits _ digit

theorem plain_of_mem_items {level : Nat} {items : List Json}
    (each : ∀ item ∈ items, ∀ c ∈ item.writeIndented level, Plain c) :
    ∀ c ∈ writeIndentedItems level items, Plain c := by
  induction items with
  | nil => simp [writeIndentedItems]
  | cons item items induction =>
      obtain ⟨here, others⟩ := List.forall_mem_cons.mp each
      intro c member
      simp only [writeIndentedItems, List.cons_append, List.mem_cons,
        List.mem_append] at member
      rcases member with rfl | (blank | inside) | later
      · decide
      · exact plain_of_mem_newLine blank
      · exact here c inside
      · exact induction others c later

theorem plain_of_mem_members {level : Nat} {members : Members}
    (each : ∀ member ∈ members, ∀ c ∈ member.2.writeIndented level, Plain c) :
    ∀ c ∈ writeIndentedMembers level members, Plain c := by
  induction members with
  | nil => simp [writeIndentedMembers]
  | cons member members induction =>
      obtain ⟨key, value⟩ := member
      obtain ⟨here, others⟩ := List.forall_mem_cons.mp each
      intro c member
      simp only [writeIndentedMembers, List.cons_append, List.mem_cons,
        List.mem_append, List.not_mem_nil, or_false] at member
      rcases member with rfl | (((blank | name) | rfl | rfl) | inside) | later
      · decide
      · exact plain_of_mem_newLine blank
      · exact plain_of_mem_writtenString name
      · decide
      · decide
      · exact here c inside
      · exact induction others c later

theorem plain_of_all {text : List Char}
    (all : text.all (fun c => decide (Plain c)) = true) :
    ∀ c ∈ text, Plain c := by
  intro c member
  exact of_decide_eq_true (List.all_eq_true.mp all c member)

theorem Exact.plain_written {value : Json} (exact : value.Exact) (level : Nat) :
    ∀ c ∈ value.writeIndented level, Plain c := by
  induction exact generalizing level with
  | null =>
      rw [writeIndented]
      exact plain_of_all (by decide)
  | bool value =>
      cases value with
      | false =>
          rw [writeIndented]
          exact plain_of_all (by decide)
      | true =>
          rw [writeIndented]
          exact plain_of_all (by decide)
  | int value =>
      intro c member
      rw [writeIndented] at member
      exact plain_of_mem_toString member
  | str value =>
      intro c member
      rw [writeIndented] at member
      exact plain_of_mem_writtenString member
  | @arr items each induction =>
      cases items with
      | nil =>
          rw [writeIndented]
          exact plain_of_all (by decide)
      | cons item items =>
          obtain ⟨first, others⟩ := List.forall_mem_cons.mp induction
          intro c member
          simp only [writeIndented, List.cons_append, List.mem_cons,
            List.mem_append, List.not_mem_nil, or_false] at member
          rcases member with
            rfl | ((((blank | inside) | later) | blank) | rfl)
          · decide
          · exact plain_of_mem_newLine blank
          · exact first _ c inside
          · exact plain_of_mem_items
              (fun item member => others item member _) c later
          · exact plain_of_mem_newLine blank
          · decide
  | @obj members keys each induction =>
      cases members with
      | nil =>
          rw [writeIndented]
          exact plain_of_all (by decide)
      | cons member members =>
          obtain ⟨key, value⟩ := member
          obtain ⟨first, others⟩ := List.forall_mem_cons.mp induction
          intro c member
          simp only [writeIndented, List.cons_append, List.mem_cons,
            List.mem_append, List.not_mem_nil, or_false] at member
          rcases member with
            rfl | (((((blank | name) | rfl | rfl) | inside) | later) | blank) |
              rfl
          · decide
          · exact plain_of_mem_newLine blank
          · exact plain_of_mem_writtenString name
          · decide
          · decide
          · exact first _ c inside
          · exact plain_of_mem_members
              (fun member inside => others member inside _) c later
          · exact plain_of_mem_newLine blank
          · decide

end Json

end FormulaEdit
