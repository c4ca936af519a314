import FormulaEdit.Failure
import Mathlib.Data.List.Forall2

/-!
# Results of computations that can fail

When a computation succeeds, so do its parts; when it fails, the first part to
fail says how.
-/

namespace FormulaEdit.Result

variable {ε α β : Type} {read : β → Except ε α}

/-- A sequence of two computations succeeds when both of them do. -/
theorem bind_eq_ok_iff {first : Except ε α} {next : α → Except ε β}
    {value : β} :
    (first >>= next) = .ok value ↔
      ∃ middle, first = .ok middle ∧ next middle = .ok value := by
  cases first with
  | error failure => simp [bind, Except.bind]
  | ok middle => simp [bind, Except.bind]

theorem bind_eq_error_iff {first : Except ε α} {next : α → Except ε β}
    {failure : ε} :
    (first >>= next) = .error failure ↔
      first = .error failure ∨
        ∃ middle, first = .ok middle ∧ next middle = .error failure := by
  cases first with
  | error cause => simp [bind, Except.bind]
  | ok middle => simp [bind, Except.bind]

/-- A check gives no value, so nothing but its success is left to say. -/
theorem exists_unit_iff {property : Unit → Prop} :
    (∃ value, property value) ↔ property () :=
  ⟨fun ⟨_, holds⟩ => holds, fun holds => ⟨(), holds⟩⟩

theorem map_eq_ok_iff {first : Except ε α} {change : α → β} {value : β} :
    first.map change = .ok value ↔
      ∃ middle, first = .ok middle ∧ change middle = value := by
  cases first with
  | error failure => simp [Except.map]
  | ok middle => simp [Except.map]

theorem toOption_eq_some_iff {first : Except ε α} {value : α} :
    first.toOption = some value ↔ first = .ok value := by
  cases first with
  | error failure => simp [Except.toOption]
  | ok middle => simp [Except.toOption]

theorem mapM_eq_ok_iff {items : List β} {results : List α} :
    items.mapM read = .ok results ↔
      List.Forall₂ (fun result item => read item = .ok result)
        results items := by
  induction items generalizing results with
  | nil =>
      rw [List.mapM_nil, List.forall₂_nil_right_iff]
      exact ⟨fun same => by cases same; rfl, fun same => by rw [same]; rfl⟩
  | cons item items induction =>
      rw [List.mapM_cons, bind_eq_ok_iff, List.forall₂_cons_right_iff]
      constructor
      · rintro ⟨result, first, rest⟩
        obtain ⟨others, later, made⟩ := bind_eq_ok_iff.mp rest
        cases made
        exact ⟨result, others, first, induction.mp later, rfl⟩
      · rintro ⟨result, others, first, later, rfl⟩
        refine ⟨result, first, ?_⟩
        exact bind_eq_ok_iff.mpr ⟨others, induction.mpr later, rfl⟩

theorem mapM_eq_error_iff {items : List β} {failure : ε} :
    items.mapM read = .error failure ↔
      ∃ before item after, items = before ++ item :: after ∧
        (∀ earlier ∈ before, ∃ result, read earlier = .ok result) ∧
        read item = .error failure := by
  induction items with
  | nil =>
      constructor
      · intro failed
        cases failed
      · rintro ⟨before, item, after, split, _⟩
        cases before <;> cases split
  | cons first items induction =>
      rw [List.mapM_cons, bind_eq_error_iff]
      constructor
      · rintro (failed | ⟨result, good, rest⟩)
        · exact ⟨[], first, items, rfl, by simp, failed⟩
        · rcases bind_eq_error_iff.mp rest with later | ⟨others, _, made⟩
          · obtain ⟨before, item, after, rfl, earlier, failed⟩ :=
              induction.mp later
            exact ⟨first :: before, item, after, rfl,
              List.forall_mem_cons.mpr ⟨⟨result, good⟩, earlier⟩, failed⟩
          · cases made
      · rintro ⟨before, item, after, split, earlier, failed⟩
        cases before with
        | nil =>
            cases split
            exact .inl failed
        | cons head before =>
            cases split
            obtain ⟨⟨result, good⟩, others⟩ := List.forall_mem_cons.mp earlier
            refine .inr ⟨result, good, ?_⟩
            apply bind_eq_error_iff.mpr
            exact .inl (induction.mpr ⟨before, item, after, rfl, others, failed⟩)

end FormulaEdit.Result
