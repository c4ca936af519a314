import FormulaEdit.Proofs.Json.Leaves
import FormulaEdit.Proofs.Result

/-!
# Reading indented JSON back

A value without floating-point numbers, in which no object has a key twice, is
read back from its indented text, by a reader with a limit if the integers of
the value have no more digits.  Each kind of value is read in front of whatever
may stand behind it, so that items and members can be put together.
-/

namespace FormulaEdit.Json

/-- A value without floating-point numbers and repeated keys. -/
inductive Exact : Json → Prop where
  | null : Exact .null
  | bool (value : Bool) : Exact (.bool value)
  | int (value : Int) : Exact (.int value)
  | str (value : String) : Exact (.str value)
  | arr {items : List Json} (each : ∀ item ∈ items, Exact item) :
      Exact (.arr items)
  | obj {members : Members} (keys : (members.map Prod.fst).Nodup)
      (each : ∀ member ∈ members, Exact member.2) : Exact (.obj members)

mutual

/-- Whether a test holds of all parts of a value that are no containers. -/
def everyLeaf (test : Json → Bool) : Json → Bool
  | .arr items => everyItemLeaf test items
  | .obj members => everyMemberLeaf test members
  | leaf => test leaf

def everyItemLeaf (test : Json → Bool) : List Json → Bool
  | [] => true
  | item :: items => item.everyLeaf test && everyItemLeaf test items

def everyMemberLeaf (test : Json → Bool) : List (String × Json) → Bool
  | [] => true
  | (_, value) :: members => value.everyLeaf test && everyMemberLeaf test members

end

theorem everyLeaf_arr {test : Json → Bool} {items : List Json} :
    (Json.arr items).everyLeaf test = true ↔
      ∀ item ∈ items, item.everyLeaf test = true := by
  rw [everyLeaf]
  induction items with
  | nil => simp [everyItemLeaf]
  | cons item items induction => simp [everyItemLeaf, induction]

theorem everyLeaf_obj {test : Json → Bool} {members : Members} :
    (Json.obj members).everyLeaf test = true ↔
      ∀ member ∈ members, member.2.everyLeaf test = true := by
  rw [everyLeaf]
  induction members with
  | nil => simp [everyMemberLeaf]
  | cons member members induction => simp [everyMemberLeaf, induction]

/-- Whether the integers of a value have no more digits than a limit allows. -/
def fits (limit : Option Nat) (value : Json) : Bool :=
  value.everyLeaf fun
    | .int number => Numeral.fits limit number
    | _ => true

theorem Exact.fits_none {value : Json} (exact : value.Exact) :
    value.fits none = true := by
  induction exact with
  | arr _ induction => exact everyLeaf_arr.mpr induction
  | obj _ _ induction => exact everyLeaf_obj.mpr induction
  | _ => rfl

/-- A value is read from its text, in front of what may stand behind it, when
there is more fuel than text. -/
def ReadBack (limit : Option Nat) (value : Json) : Prop :=
  ∀ (level fuel : Nat) (rest : List Char), Parted rest →
    (value.writeIndented level).length ≤ fuel →
    readValue limit (fuel + 1) (value.writeIndented level ++ rest) =
      .ok (value, rest)

variable {limit : Option Nat}

/-! ## White space -/

theorem skipSpace_cons {c : Char} (mark : isSpace c = false)
    (text : List Char) : skipSpace (c :: text) = c :: text := by
  rw [skipSpace, List.dropWhile_cons, mark, if_neg Bool.false_ne_true]

theorem isSpace_of_isDigit {c : Char} (digit : isDigit c = true) :
    isSpace c = false := by
  have apart := fun other => ne_of_isDigit digit other
  simp [isSpace, apart ' ' rfl, apart '\t' rfl, apart '\n' rfl,
    apart '\r' rfl]

theorem skipSpace_newLine (level : Nat) (text : List Char) :
    skipSpace (newLine level ++ text) = skipSpace text := by
  have every : ∀ c ∈ newLine level, isSpace c = true := by
    intro c member
    rcases List.mem_cons.mp member with rfl | blank
    · rfl
    · rw [List.eq_of_mem_replicate blank]
      rfl
  exact List.dropWhile_append_of_pos every

theorem length_newLine (level : Nat) :
    (newLine level).length = 2 * level + 1 := by
  rw [newLine, List.length_cons, List.length_replicate]

theorem parted_newLine (level : Nat) (text : List Char) :
    Parted (newLine level ++ text) := by
  intro c head
  cases head
  exact .inr rfl

theorem parted_comma (text : List Char) : Parted (',' :: text) := by
  intro c head
  cases head
  exact .inl rfl

/-- The text of a value starts with neither white space, a closing bracket
nor a byte order mark. -/
theorem Exact.exists_head {value : Json} (exact : value.Exact) (level : Nat) :
    ∃ c text, value.writeIndented level = c :: text ∧ isSpace c = false ∧
      c ≠ ']' ∧ c ≠ '\ufeff' := by
  cases exact with
  | null => exact ⟨'n', _, by rw [writeIndented], by decide⟩
  | bool value =>
      cases value with
      | false => exact ⟨'f', _, by rw [writeIndented], by decide⟩
      | true => exact ⟨'t', _, by rw [writeIndented], by decide⟩
  | int value =>
      rw [writeIndented]
      obtain ⟨c, others, digit, starts | starts⟩ := exists_toString value
      · have apart := fun other => ne_of_isDigit digit other
        exact ⟨c, others, starts, isSpace_of_isDigit digit, apart _ rfl,
          apart _ rfl⟩
      · exact ⟨'-', _, starts, by decide⟩
  | str value => exact ⟨'"', _, by rw [writeIndented, writtenString]; rfl,
      by decide⟩
  | @arr items each =>
      cases items with
      | nil => exact ⟨'[', _, by rw [writeIndented], by decide⟩
      | cons item items =>
          exact ⟨'[', _, by rw [writeIndented]; rfl, by decide⟩
  | @obj members keys each =>
      cases members with
      | nil => exact ⟨'\x7b', _, by rw [writeIndented], by decide⟩
      | cons member members =>
          obtain ⟨key, value⟩ := member
          exact ⟨'\x7b', _, by rw [writeIndented]; rfl, by decide⟩

theorem Exact.skipSpace_written {value : Json} (exact : value.Exact)
    (level : Nat) (rest : List Char) :
    skipSpace (value.writeIndented level ++ rest) =
      value.writeIndented level ++ rest := by
  obtain ⟨c, text, starts, mark, _⟩ := exact.exists_head level
  rw [starts, List.cons_append, skipSpace_cons mark]

/-! ## Scalars -/

theorem readValue_scalar {c : Char} (notQuote : c ≠ '"') (notArray : c ≠ '[')
    (notObject : c ≠ '\x7b') (fuel : Nat) (text : List Char) :
    readValue limit (fuel + 1) (c :: text) = readScalar limit (c :: text) := by
  rw [readValue]
  · intro rest same
    cases same
    exact notQuote rfl
  · intro rest same
    cases same
    exact notArray rfl
  · intro rest same
    cases same
    exact notObject rfl

theorem readBack_int {value : Int} (fits : Numeral.fits limit value = true) :
    (Json.int value).ReadBack limit := by
  intro level fuel rest parted _
  have read := readScalar_toString parted fits
  rw [writeIndented]
  obtain ⟨c, others, digit, starts | starts⟩ := exists_toString value
  · rw [starts, List.cons_append] at read ⊢
    rw [readValue_scalar (ne_of_isDigit digit _ rfl)
      (ne_of_isDigit digit _ rfl) (ne_of_isDigit digit _ rfl), read]
  · rw [starts, List.cons_append] at read ⊢
    rw [readValue_scalar (by decide) (by decide) (by decide), read]

theorem writtenString_append (text : String) (rest : List Char) :
    writtenString text ++ rest =
      '"' :: (text.toList.flatMap writtenChar ++ '"' :: rest) := by
  simp [writtenString]

theorem readString_text (start rest : List Char) (text : String) :
    readString start 0 [] (text.toList.flatMap writtenChar ++ '"' :: rest) =
      .ok (text, rest) := by
  rw [readString_written, List.reverse_nil, List.nil_append,
    String.ofList_toList]

theorem readBack_str (value : String) : (Json.str value).ReadBack limit := by
  intro level fuel rest _ _
  rw [writeIndented, writtenString_append, readValue, readString_text]
  rfl

/-! ## Arrays -/

theorem readItems_written (level outer : Nat) (rest : List Char)
    {item : Json} {items : List Json}
    (exact : ∀ value ∈ item :: items, value.Exact)
    (back : ∀ value ∈ item :: items, value.ReadBack limit) {fuel : Nat}
    (enough : (item.writeIndented level).length +
      (writeIndentedItems level items).length ≤ fuel) :
    readItems limit (fuel + 2) (item.writeIndented level ++
        (writeIndentedItems level items ++ (newLine outer ++ ']' :: rest))) =
      .ok (item :: items, rest) := by
  induction items generalizing item fuel with
  | nil =>
      rw [writeIndentedItems, List.nil_append, readItems]
      have read := back item List.mem_cons_self level fuel _
        (parted_newLine outer (']' :: rest)) (by omega)
      apply Result.bind_eq_ok_iff.mpr
      refine ⟨_, read, ?_⟩
      simp only [skipSpace_newLine, skipSpace_cons (c := ']') rfl]
      rfl
  | cons second items induction =>
      rw [writeIndentedItems] at enough ⊢
      simp only [List.length_append, List.length_cons, length_newLine]
        at enough
      obtain ⟨fuel, rfl⟩ : ∃ less, fuel = less + 1 :=
        Nat.exists_eq_add_of_le' (by omega)
      simp only [List.cons_append, List.append_assoc]
      rw [readItems]
      have read := back item List.mem_cons_self level (fuel + 1) _
        (parted_comma (newLine level ++ (second.writeIndented level ++
          (writeIndentedItems level items ++
            (newLine outer ++ ']' :: rest))))) (by omega)
      have others := induction
        (fun value member => exact value (List.mem_cons_of_mem _ member))
        (fun value member => back value (List.mem_cons_of_mem _ member))
        (by omega : _ ≤ fuel)
      have secondExact := exact second
        (List.mem_cons_of_mem _ List.mem_cons_self)
      apply Result.bind_eq_ok_iff.mpr
      refine ⟨_, read, ?_⟩
      simp only [skipSpace_cons (c := ',') rfl, skipSpace_newLine,
        secondExact.skipSpace_written, others]
      rfl

theorem readBack_arr {items : List Json} (exact : ∀ item ∈ items, item.Exact)
    (back : ∀ item ∈ items, item.ReadBack limit) :
    (Json.arr items).ReadBack limit := by
  intro level fuel rest _ enough
  cases items with
  | nil =>
      rw [writeIndented]
      rfl
  | cons item items =>
      rw [writeIndented] at enough ⊢
      simp only [List.length_append, List.length_cons, length_newLine]
        at enough
      simp only [List.cons_append, List.append_assoc, List.nil_append]
      obtain ⟨fuel, rfl⟩ : ∃ less, fuel = less + 2 :=
        Nat.exists_eq_add_of_le' (by omega)
      have itemExact := exact item List.mem_cons_self
      obtain ⟨c, text, starts, _, notClosing, _⟩ :=
        itemExact.exists_head (level + 1)
      have read := readItems_written (level + 1) level rest exact back
        (by omega : _ ≤ fuel)
      rw [readValue, skipSpace_newLine, itemExact.skipSpace_written]
      rw [starts] at read ⊢
      split
      next same =>
        cases same
        exact absurd rfl notClosing
      next =>
        exact Result.bind_eq_ok_iff.mpr ⟨_, read, rfl⟩

/-! ## Objects -/

theorem Members.put_of_fresh {members : Members} {key : String}
    (fresh : key ∉ members.map Prod.fst) (value : Json) :
    members.put key value = members ++ [(key, value)] := by
  induction members with
  | nil => rfl
  | cons member members induction =>
      rw [List.map_cons, List.mem_cons, not_or] at fresh
      obtain ⟨other, absent⟩ := fresh
      rw [Members.put, if_neg (Ne.symm other), induction absent]
      rfl

/-- A new member is read and put last; what stands behind it decides how to
go on. -/
theorem readMembers_member {level fuel : Nat} {before : Members}
    {key : String} {value : Json} {rest : List Char}
    (fresh : key ∉ before.map Prod.fst) (exact : value.Exact)
    (read : readValue limit fuel (value.writeIndented level ++ rest) =
      .ok (value, rest)) :
    readMembers limit (fuel + 1) before (writtenString key ++ ':' :: ' ' ::
        (value.writeIndented level ++ rest)) =
      match skipSpace rest with
      | '\x7d' :: rest => .ok (before ++ [(key, value)], rest)
      | ',' :: rest =>
          readMembers limit fuel (before ++ [(key, value)]) (skipSpace rest)
      | rest => .error (.fault .expectedComma rest) := by
  have blank : skipSpace (' ' :: (value.writeIndented level ++ rest)) =
      value.writeIndented level ++ rest :=
    exact.skipSpace_written level rest
  rw [writtenString_append, readMembers, readString_text]
  simp only [bind, Except.bind, skipSpace_cons (c := ':') rfl, blank, read,
    Members.put_of_fresh fresh]
  rfl

theorem Members.fresh_of_nodup {before members : Members} {key : String}
    {value : Json}
    (keys : ((before ++ (key, value) :: members).map Prod.fst).Nodup) :
    key ∉ before.map Prod.fst := by
  rw [List.map_append, List.map_cons] at keys
  intro member
  exact (List.nodup_append.mp keys).2.2 key member key List.mem_cons_self rfl

theorem readMembers_written (level outer : Nat) (rest : List Char)
    (before : Members) {key : String} {value : Json} {members : Members}
    (keys : ((before ++ (key, value) :: members).map Prod.fst).Nodup)
    (exact : ∀ member ∈ (key, value) :: members, member.2.Exact)
    (back : ∀ member ∈ (key, value) :: members, member.2.ReadBack limit)
    {fuel : Nat}
    (enough : (value.writeIndented level).length +
      (writeIndentedMembers level members).length ≤ fuel) :
    readMembers limit (fuel + 2) before (writtenString key ++ ':' :: ' ' ::
        (value.writeIndented level ++ (writeIndentedMembers level members ++
          (newLine outer ++ '\x7d' :: rest)))) =
      .ok (before ++ (key, value) :: members, rest) := by
  induction members generalizing before key value fuel with
  | nil =>
      have valueExact : value.Exact := exact _ List.mem_cons_self
      have valueBack : value.ReadBack limit := back _ List.mem_cons_self
      have read := valueBack level fuel _
        (parted_newLine outer ('\x7d' :: rest)) (by omega)
      rw [writeIndentedMembers, List.nil_append,
        readMembers_member (Members.fresh_of_nodup keys) valueExact read,
        skipSpace_newLine, skipSpace_cons rfl]
      rfl
  | cons second members induction =>
      obtain ⟨nextKey, next⟩ := second
      have valueExact : value.Exact := exact _ List.mem_cons_self
      have valueBack : value.ReadBack limit := back _ List.mem_cons_self
      rw [writeIndentedMembers] at enough ⊢
      simp only [List.length_append, List.length_cons, length_newLine]
        at enough
      obtain ⟨fuel, rfl⟩ : ∃ less, fuel = less + 1 :=
        Nat.exists_eq_add_of_le' (by omega)
      simp only [List.cons_append, List.append_assoc, List.nil_append]
      have read := valueBack level (fuel + 1) _ (parted_comma (newLine level ++
        (writtenString nextKey ++ ':' :: ' ' :: (next.writeIndented level ++
          (writeIndentedMembers level members ++
            (newLine outer ++ '\x7d' :: rest)))))) (by omega)
      have others := induction (before ++ [(key, value)])
        (by rw [List.append_assoc]; exact keys)
        (fun member inside => exact member (List.mem_cons_of_mem _ inside))
        (fun member inside => back member (List.mem_cons_of_mem _ inside))
        (by omega : _ ≤ fuel)
      rw [readMembers_member (Members.fresh_of_nodup keys) valueExact read,
        skipSpace_cons rfl]
      simp only [skipSpace_newLine]
      rw [writtenString_append] at others ⊢
      rw [skipSpace_cons rfl, others, List.append_assoc]
      rfl

theorem readBack_obj {members : Members}
    (keys : (members.map Prod.fst).Nodup)
    (exact : ∀ member ∈ members, member.2.Exact)
    (back : ∀ member ∈ members, member.2.ReadBack limit) :
    (Json.obj members).ReadBack limit := by
  intro level fuel rest _ enough
  cases members with
  | nil =>
      rw [writeIndented]
      rfl
  | cons member members =>
      obtain ⟨key, value⟩ := member
      rw [writeIndented] at enough ⊢
      simp only [List.length_append, List.length_cons, length_newLine]
        at enough
      simp only [List.cons_append, List.append_assoc, List.nil_append]
      obtain ⟨fuel, rfl⟩ : ∃ less, fuel = less + 2 :=
        Nat.exists_eq_add_of_le' (by omega)
      have read := readMembers_written (level + 1) level rest [] keys exact
        back (by omega : _ ≤ fuel)
      rw [readValue, skipSpace_newLine]
      rw [writtenString_append] at read ⊢
      rw [skipSpace_cons rfl]
      exact Result.bind_eq_ok_iff.mpr ⟨_, read, rfl⟩

/-! ## Whole texts -/

theorem Exact.readBack {value : Json} (exact : value.Exact)
    (fits : value.fits limit = true) : value.ReadBack limit := by
  induction exact with
  | null =>
      intro level fuel rest _ _
      rw [writeIndented]
      rfl
  | bool value =>
      intro level fuel rest _ _
      cases value with
      | false =>
          rw [writeIndented]
          rfl
      | true =>
          rw [writeIndented]
          rfl
  | int value => exact readBack_int fits
  | str value => exact readBack_str value
  | arr each induction =>
      have inside := everyLeaf_arr.mp fits
      exact readBack_arr each fun item member =>
        induction item member (inside item member)
  | obj keys each induction =>
      have inside := everyLeaf_obj.mp fits
      exact readBack_obj keys each fun member held =>
        induction member held (inside member held)

/-- An exact value is read from its text with white space behind it. -/
theorem readChars_written {value : Json} (exact : value.Exact)
    (fits : value.fits limit = true) (blank : List Char)
    (parted : Parted blank) (spaces : ∀ c ∈ blank, isSpace c = true) :
    readChars limit (value.writeIndented 0 ++ blank) = .ok value := by
  obtain ⟨c, text, starts, mark, _, noMark⟩ := exact.exists_head 0
  have back := exact.readBack fits 0 (value.writeIndented 0 ++ blank).length
    blank parted (by simp)
  have skipped : skipSpace blank = [] := by
    rw [← List.append_nil blank]
    exact List.dropWhile_append_of_pos spaces
  rw [starts] at back ⊢
  unfold readChars
  split
  next same =>
    cases same
    exact absurd rfl noMark
  next =>
    rw [List.cons_append, skipSpace_cons mark]
    refine Result.bind_eq_ok_iff.mpr ⟨_, back, ?_⟩
    simp only [skipped]
    rfl

theorem read_indented {value : Json} (exact : value.Exact)
    (fits : value.fits limit = true) :
    Json.read limit value.indented = .ok value := by
  have chars := readChars_written exact fits [] (by simp [Parted]) (by simp)
  rw [List.append_nil] at chars
  rw [Json.read, indented, String.toList_ofList, chars]
  rfl

theorem read_indented_line {value : Json} (exact : value.Exact)
    (fits : value.fits limit = true) :
    Json.read limit (value.indented ++ "\n") = .ok value := by
  have chars := readChars_written exact fits "\n".toList (by simp [Parted])
    (by simp [isSpace])
  rw [Json.read, indented, String.toList_append, String.toList_ofList, chars]
  rfl

end FormulaEdit.Json
