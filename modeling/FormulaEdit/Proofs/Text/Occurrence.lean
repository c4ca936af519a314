/-!
# Replacing occurrences of a text

Occurrences are found from left to right and do not overlap.  A scanner finds
them.  What it finds is said apart from it by two rules: the first occurrence
is replaced and the others behind it, until none is left or the limit is
reached.
-/

namespace FormulaEdit.Text

/-- Replace occurrences of `source` by `target`.  `limit` is the number of
replacements still allowed, if there is one; `skip` counts the characters of
an occurrence that are still to be passed over. -/
def replaceChars (source target : List Char) :
    (limit : Option Nat) → (skip : Nat) → List Char → List Char
  | _, _, [] => []
  | limit, skip + 1, _ :: rest => replaceChars source target limit skip rest
  | limit, 0, c :: rest =>
      if limit = some 0 then c :: rest
      else if source.isPrefixOf (c :: rest) then
        target ++ replaceChars source target (limit.map (· - 1))
          (source.length - 1) rest
      else c :: replaceChars source target limit 0 rest

/-- Replace the first `count` occurrences of a non-empty `source`, or all of
them if `count` is zero. -/
def replaceOccurrences (source target : List Char) (count : Nat)
    (text : List Char) : List Char :=
  replaceChars source target (if count = 0 then none else some count) 0 text

/-- A text after occurrences of `source` in it have been replaced by `target`,
at most `limit` of them.  An occurrence is the first one if there is none that
ends before it does. -/
inductive Replaces (source target : List Char) :
    (limit : Option Nat) → (text result : List Char) → Prop where
  | done {limit : Option Nat} {text : List Char}
      (stops : limit = some 0 ∨ ¬source <:+: text) :
      Replaces source target limit text text
  | next {limit : Option Nat} {before after result : List Char}
      (more : limit ≠ some 0) (first : ¬source <:+: (before ++ source).dropLast)
      (rest : Replaces source target (limit.map (· - 1)) after result) :
      Replaces source target limit (before ++ source ++ after)
        (before ++ target ++ result)

variable {source target : List Char}

/-! ## The scanner follows the rules -/

theorem replaceChars_skip (source target : List Char) (limit : Option Nat)
    (skip : Nat) (text : List Char) :
    replaceChars source target limit skip text =
      replaceChars source target limit 0 (text.drop skip) := by
  induction text generalizing skip with
  | nil => simp [replaceChars]
  | cons c text induction =>
      cases skip with
      | zero => rfl
      | succ skip =>
          rw [replaceChars, induction skip, List.drop_succ_cons]

theorem replaceChars_source {limit : Option Nat} (nonempty : source ≠ [])
    (more : limit ≠ some 0) (target after : List Char) :
    replaceChars source target limit 0 (source ++ after) =
      target ++ replaceChars source target (limit.map (· - 1)) 0 after := by
  obtain ⟨c, others, rfl⟩ := List.exists_cons_of_ne_nil nonempty
  have found : (c :: others).isPrefixOf (c :: (others ++ after)) = true :=
    List.isPrefixOf_iff_prefix.mpr (List.prefix_append (c :: others) after)
  rw [List.cons_append, replaceChars, if_neg more, if_pos found,
    replaceChars_skip, List.length_cons, Nat.add_sub_cancel, List.drop_left]

theorem replaceChars_cons {limit : Option Nat} {c : Char} {text : List Char}
    (more : limit ≠ some 0) (other : ¬source <+: c :: text) :
    replaceChars source target limit 0 (c :: text) =
      c :: replaceChars source target limit 0 text := by
  have missed : ¬source.isPrefixOf (c :: text) = true := by
    intro found
    have front := List.isPrefixOf_iff_prefix.mp found
    exact other front
  rw [replaceChars, if_neg more, if_neg missed]

theorem replaceChars_none {limit : Option Nat} {text : List Char}
    (stops : limit = some 0 ∨ ¬source <:+: text) :
    replaceChars source target limit 0 text = text := by
  rcases stops with rfl | absent
  · cases text with
    | nil => rfl
    | cons c text => rw [replaceChars, if_pos rfl]
  · induction text with
    | nil => rfl
    | cons c text induction =>
        rw [List.infix_cons_iff, not_or] at absent
        by_cases stopped : limit = some 0
        · rw [replaceChars, if_pos stopped]
        · rw [replaceChars_cons stopped absent.1, induction absent.2]

theorem dropLast_front (part after : List Char) :
    part.dropLast <+: part ++ after := by
  have front : part.dropLast <+: part := List.dropLast_prefix part
  exact front.trans (List.prefix_append part after)

/-- An occurrence at the front of a text ends before a later one does. -/
theorem infix_dropLast_of_front {c : Char} {before after : List Char}
    (front : source <+: c :: before ++ source ++ after) :
    source <:+: (c :: before ++ source).dropLast := by
  have part : (c :: before ++ source).dropLast <+:
      c :: before ++ source ++ after :=
    dropLast_front _ _
  have fits : source.length ≤ (c :: before ++ source).dropLast.length := by
    simp
  exact (List.prefix_of_prefix_length_le front part fits).isInfix

theorem replaceChars_first {limit : Option Nat} (nonempty : source ≠ [])
    (more : limit ≠ some 0) {before : List Char}
    (first : ¬source <:+: (before ++ source).dropLast)
    (target after : List Char) :
    replaceChars source target limit 0 (before ++ source ++ after) =
      before ++ target ++
        replaceChars source target (limit.map (· - 1)) 0 after := by
  induction before with
  | nil => exact replaceChars_source nonempty more target after
  | cons c before induction =>
      have later : ¬source <:+: (before ++ source).dropLast := by
        intro earlier
        apply first
        rw [List.cons_append, List.dropLast_cons_of_ne_nil (by simp [nonempty])]
        exact earlier.trans (List.suffix_cons _ _).isInfix
      have other : ¬source <+: c :: (before ++ source ++ after) :=
        fun front => first (infix_dropLast_of_front front)
      rw [List.cons_append, List.cons_append,
        replaceChars_cons more other, induction later]
      rfl

namespace Replaces

variable {limit : Option Nat} {text result : List Char}

theorem cons {c : Char} (nonempty : source ≠ []) (other : ¬source <+: c :: text)
    (replaces : Replaces source target limit text result) :
    Replaces source target limit (c :: text) (c :: result) := by
  cases replaces with
  | done stops =>
      refine .done (stops.imp_right fun absent => ?_)
      rw [List.infix_cons_iff, not_or]
      exact ⟨other, absent⟩
  | @next _ before after result more first rest =>
      refine @next _ _ _ (c :: before) _ _ more ?_ rest
      rw [List.cons_append, List.dropLast_cons_of_ne_nil (by simp [nonempty]),
        List.infix_cons_iff, not_or]
      refine ⟨fun front => other ?_, first⟩
      exact front.trans ((List.prefix_cons_inj c).mpr (dropLast_front _ _))

/-- The rules leave one result, the one that the scanner finds. -/
theorem eq_replaceChars (nonempty : source ≠ [])
    (replaces : Replaces source target limit text result) :
    result = replaceChars source target limit 0 text := by
  induction replaces with
  | done stops => exact (replaceChars_none stops).symm
  | next more first _ induction =>
      rw [replaceChars_first nonempty more first, ← induction]

end Replaces

theorem replaces_replaceChars (nonempty : source ≠ []) (limit : Option Nat)
    (text : List Char) :
    Replaces source target limit text
      (replaceChars source target limit 0 text) := by
  induction size : text.length using Nat.strongRecOn
    generalizing limit text with
  | ind bound induction =>
      by_cases stops : limit = some 0
      · rw [replaceChars_none (.inl stops)]
        exact .done (.inl stops)
      cases text with
      | nil =>
          refine .done (.inr ?_)
          rwa [List.infix_nil]
      | cons c text =>
          by_cases front : source <+: c :: text
          · obtain ⟨after, same⟩ := front
            have positive := List.length_pos_iff.mpr nonempty
            have shorter : after.length < bound := by
              rw [← size, ← same, List.length_append]
              omega
            rw [← same, replaceChars_source nonempty stops]
            have first : ¬source <:+: ([] ++ source).dropLast := by
              intro inside
              have short := inside.length_le
              rw [List.nil_append, List.length_dropLast] at short
              omega
            exact @Replaces.next _ _ _ [] _ _ stops first
              (induction after.length shorter _ after rfl)
          · rw [replaceChars_cons stops front]
            exact (induction text.length (by simp at size; omega) limit text
              rfl).cons nonempty front

theorem replaces_iff (nonempty : source ≠ []) {limit : Option Nat}
    {text result : List Char} :
    Replaces source target limit text result ↔
      result = replaceChars source target limit 0 text := by
  constructor
  · exact Replaces.eq_replaceChars nonempty
  · rintro rfl
    exact replaces_replaceChars nonempty limit text

/-! ## Lengths -/

namespace Replaces

variable {limit : Option Nat} {text result : List Char}

theorem eq_or_length_lt (shorter : target.length < source.length)
    (replaces : Replaces source target limit text result) :
    result = text ∨ result.length < text.length := by
  induction replaces with
  | done => exact .inl rfl
  | @next _ before after result _ _ _ induction =>
      right
      have atMost : result.length ≤ after.length := by
        rcases induction with same | less
        · exact Nat.le_of_eq (congrArg List.length same)
        · exact Nat.le_of_lt less
      simp only [List.length_append]
      omega

theorem length_le (longer : source.length ≤ target.length)
    (replaces : Replaces source target limit text result) :
    text.length ≤ result.length := by
  induction replaces with
  | done => exact Nat.le_refl _
  | next _ _ _ induction =>
      simp only [List.length_append]
      omega

theorem grows (inside : source <:+: target) (other : target ≠ source)
    (occurs : source <:+: text) (more : limit ≠ some 0)
    (replaces : Replaces source target limit text result) :
    source <:+: result ∧ text.length < result.length := by
  have longer : source.length < target.length :=
    Nat.lt_of_le_of_ne inside.length_le
      fun same => other (inside.eq_of_length same).symm
  cases replaces with
  | done stops => exact absurd occurs (stops.resolve_left more)
  | @next _ before after result _ _ rest =>
      have atLeast := rest.length_le (Nat.le_of_lt longer)
      refine ⟨?_, by simp only [List.length_append]; omega⟩
      exact inside.trans (List.infix_append before target result)

end Replaces

end FormulaEdit.Text
