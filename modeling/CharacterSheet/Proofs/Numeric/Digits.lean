import CharacterSheet.Numeric.Decimal
import Mathlib.Data.List.TakeDrop
import Mathlib.Tactic.Ring

/-!
# Runs of decimal digits

Where a run of digits ends, and the number that it writes.  Writing digits
behind others multiplies the number of these by a power of ten.
-/

namespace CharacterSheet
namespace Numeric

/-! ## Taking digits from the front -/

/-- Digits are passed up to what is no digit. -/
theorem spanDigits_append {digits tail : List Char} (isDigit : ∀ c ∈ digits, c.isDigit = true)
    (stops : ∀ c ∈ tail.head?, c.isDigit = false) :
    spanDigits (digits ++ tail) = (digits, tail) := by
  rw [spanDigits, List.span_eq_takeWhile_dropWhile, List.takeWhile_append_of_pos isDigit,
    List.dropWhile_append_of_pos isDigit]
  cases tail with
  | nil => rw [List.takeWhile_nil, List.dropWhile_nil, List.append_nil]
  | cons c rest =>
    have noDigit := Bool.eq_false_iff.mp (stops c rfl)
    rw [List.takeWhile_cons_of_neg noDigit, List.dropWhile_cons_of_neg noDigit, List.append_nil]

/-- A text begins with digits up to what is no digit. -/
theorem exists_digits_append (text : List Char) :
    ∃ digits rest, text = digits ++ rest ∧ (∀ c ∈ digits, c.isDigit = true) ∧
      ∀ c ∈ rest.head?, c.isDigit = false := by
  induction text with
  | nil => exact ⟨[], [], rfl, List.forall_mem_nil _, by rintro _ ⟨⟩⟩
  | cons c text inductionHypothesis =>
    cases digit : c.isDigit with
    | false =>
      refine ⟨[], c :: text, rfl, List.forall_mem_nil _, ?_⟩
      rintro _ ⟨⟩
      exact digit
    | true =>
      rcases inductionHypothesis with ⟨digits, rest, rfl, isDigit, stops⟩
      exact ⟨c :: digits, rest, rfl, List.forall_mem_cons.mpr ⟨digit, isDigit⟩, stops⟩

/-! ## The number written -/

theorem foldl_digits (start : ℕ) (digits : List Char) :
    digits.foldl (fun value digit => 10 * value + (digit.toNat - '0'.toNat)) start =
      start * 10 ^ digits.length + digitsValue digits := by
  induction digits generalizing start with
  | nil => simp [digitsValue]
  | cons digit digits inductionHypothesis =>
    rw [digitsValue, List.foldl_cons, List.foldl_cons, inductionHypothesis, inductionHypothesis,
      List.length_cons]
    ring

theorem digitsValue_append (front back : List Char) :
    digitsValue (front ++ back) = digitsValue front * 10 ^ back.length + digitsValue back := by
  rw [digitsValue, List.foldl_append, foldl_digits]
  rfl

theorem digitsValue_zeros (count : ℕ) : digitsValue (List.replicate count '0') = 0 := by
  induction count with
  | zero => rfl
  | succ count inductionHypothesis =>
    have none : digitsValue ['0'] = 0 := rfl
    rw [List.replicate_succ', digitsValue_append, inductionHypothesis, none, Nat.zero_mul]

theorem digitsValue_toDigits (number : ℕ) : digitsValue (Nat.toDigits 10 number) = number := by
  have same := Nat.ofDigitChars_toDigits (b := 10) (n := number) (by decide) (by decide)
  rwa [Nat.ofDigitChars_eq_foldl] at same

theorem toList_toString (number : ℕ) : (toString number).toList = Nat.toDigits 10 number := by
  rw [Nat.toString_eq_ofList_toDigits, String.toList_ofList]

theorem isDigit_of_mem_toString {number : ℕ} {c : Char} (member : c ∈ (toString number).toList) :
    c.isDigit = true := by
  rw [toList_toString] at member
  exact Nat.isDigit_of_mem_toDigits (by decide) (by decide) member

/-- The decimal digits tell numbers apart. -/
theorem toString_injective : Function.Injective (toString : ℕ → String) := by
  intro first second same
  have digits := congrArg (digitsValue ∘ String.toList) same
  simpa [toList_toString, digitsValue_toDigits] using digits

theorem dot_not_mem_toString (number : ℕ) : '.' ∉ (toString number).toList :=
  fun member => absurd (isDigit_of_mem_toString member) (by decide)

end Numeric
end CharacterSheet
