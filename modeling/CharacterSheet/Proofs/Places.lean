import Mathlib.Data.List.Basic

/-!
# Places in lists

Where an item of a list stands is told by what comes before it and after it.
-/

namespace CharacterSheet

variable {α : Type}

/-- Of two items of a list, one comes before the other or both are the same. -/
theorem split_trichotomy {before after early late : List α} {item other : α}
    (same : before ++ item :: after = early ++ other :: late) :
    (∃ between, early = before ++ item :: between ∧ after = between ++ other :: late) ∨
      (before = early ∧ item = other ∧ after = late) ∨
        ∃ between, before = early ++ other :: between ∧ late = between ++ item :: after := by
  rcases List.append_eq_append_iff.mp same with ⟨between, rfl, rest⟩ | ⟨between, rfl, rest⟩
  · cases between with
    | nil =>
      cases rest
      exact Or.inr (Or.inl ⟨(List.append_nil _).symm, rfl, rfl⟩)
    | cons _ between =>
      cases rest
      exact Or.inl ⟨between, rfl, rfl⟩
  · cases between with
    | nil =>
      cases rest
      exact Or.inr (Or.inl ⟨List.append_nil _, rfl, rfl⟩)
    | cons _ between =>
      cases rest
      exact Or.inr (Or.inr ⟨between, rfl, rfl⟩)

/-- A split of what is left of a list is a split of the list. -/
theorem exists_split_of_filter {keep : α → Bool} {items before after : List α}
    {item : α} (split : items.filter keep = before ++ item :: after) :
    ∃ early late, items = early ++ item :: late ∧
      early.filter keep = before ∧ late.filter keep = after := by
  rcases List.filter_eq_append_iff.mp split with ⟨early, rest, rfl, rfl, splitRest⟩
  rcases List.filter_eq_cons_iff.mp splitRest with ⟨between, late, rfl, skipped, -, rfl⟩
  refine ⟨early ++ between, late, by rw [List.append_assoc], ?_, rfl⟩
  rw [List.filter_append, List.filter_eq_nil_iff.mpr skipped, List.append_nil]

end CharacterSheet
