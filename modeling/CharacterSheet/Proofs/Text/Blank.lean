import CharacterSheet.Text.Blank
import Mathlib.Data.List.TakeDrop

/-!
# What is not blank

No digit is blank.  What is cut off a text are the blanks around its first and
its last character that is not blank.
-/

namespace CharacterSheet
namespace Text

/-- A character differs from all those that lack a property of it. -/
theorem ne_of_lacking (property : Char → Bool) {c : Char} (holds : property c = true)
    {others : List Char} (lacking : others.any property = false) : ∀ other ∈ others, c ≠ other := by
  rintro _ listed rfl
  exact List.any_eq_false.mp lacking c listed holds

/-- No blank lies in a range of characters away from those of the blanks. -/
theorem not_between_of_isBlank {c : Char} (blank : isBlank c = true) (low high : Nat)
    (away : ∀ range ∈ blankRanges, high < range.1 ∨ range.2 < low) :
    ¬(low ≤ c.toNat ∧ c.toNat ≤ high) := by
  rcases List.any_eq_true.mp blank with ⟨range, listed, within⟩
  have ranges := away range listed
  simp only [Bool.and_eq_true, decide_eq_true_eq] at within
  omega

/-- A digit is not blank. -/
theorem isBlank_of_isDigit {c : Char} (digit : c.isDigit = true) : isBlank c = false := by
  have bounds : 48 ≤ c.toNat ∧ c.toNat ≤ 57 := by
    simpa [Char.isDigit, UInt32.le_iff_toNat_le] using digit
  exact Bool.eq_false_iff.mpr fun blank =>
    not_between_of_isBlank blank 48 57 (by decide) bounds

theorem dropWhile_isBlank {before text : List Char} (blank : ∀ c ∈ before, isBlank c = true)
    (dark : ∀ c ∈ text.head?, isBlank c = false) :
    (before ++ text).dropWhile isBlank = text := by
  rw [List.dropWhile_append_of_pos blank]
  cases text with
  | nil => rfl
  | cons c rest => exact List.dropWhile_cons_of_neg (Bool.eq_false_iff.mp (dark c rfl))

/-- Blanks are cut off both ends, up to what is not blank. -/
theorem trim_append {before text after : List Char} (blankBefore : ∀ c ∈ before, isBlank c = true)
    (blankAfter : ∀ c ∈ after, isBlank c = true) (first : ∀ c ∈ text.head?, isBlank c = false)
    (last : ∀ c ∈ text.getLast?, isBlank c = false) (written : text ≠ []) :
    trim (before ++ (text ++ after)) = text := by
  have firstOfBoth : ∀ c ∈ (text ++ after).head?, isBlank c = false := by
    cases text with
    | nil => exact absurd rfl written
    | cons c rest => exact first
  rw [trim, dropWhile_isBlank blankBefore firstOfBoth, List.reverse_append,
    dropWhile_isBlank (fun c member => blankAfter c (List.mem_reverse.mp member))
      (by rwa [List.head?_reverse]), List.reverse_reverse]

/-- Nothing is cut off a text without blanks. -/
theorem trim_of_plain {text : List Char} (plain : ∀ c ∈ text, isBlank c = false) :
    trim text = text := by
  have kept : ∀ {text : List Char}, (∀ c ∈ text, isBlank c = false) →
      text.dropWhile isBlank = text := fun plain =>
    dropWhile_isBlank (List.forall_mem_nil _) fun c first => plain c (List.mem_of_mem_head? first)
  rw [trim, kept plain, kept fun c member => plain c (List.mem_reverse.mp member),
    List.reverse_reverse]

end Text
end CharacterSheet
