import CharacterSheet.Numeric.Rounding
import Mathlib.Data.Prod.Lex
import Mathlib.Order.Compare

/-!
# The order of doubles

Doubles that are defined are compared by sign, then by exponent, then by
mantissa, and the last two the other way around if the sign is negative.  So
each has a rank in a linear order, and comparing two of them is comparing their
ranks.  An undefined number has no place in the order; every statement here
leaves it out.
-/

namespace CharacterSheet
namespace Numeric

open Float.Model (UnpackedFloat)

/-- The place of a number among all others, by sign, exponent and mantissa. -/
def unpackedRank : UnpackedFloat → Int ×ₗ Int ×ₗ Int
  | .notANumber => toLex (0, toLex (0, 0))
  | .infinity .negative => toLex (-2, toLex (0, 0))
  | .finite .negative mantissa exponent _ => toLex (-1, toLex (-exponent, -mantissa))
  | .zero _ => toLex (0, toLex (0, 0))
  | .finite .positive mantissa exponent _ => toLex (1, toLex (exponent, mantissa))
  | .infinity .positive => toLex (2, toLex (0, 0))

/-- The place of a double among all others. -/
def rank (x : Float) : Int ×ₗ Int ×ₗ Int :=
  unpackedRank x.toModel.unpack

theorem compare_natCast (first second : Nat) :
    compare (first : Int) (second : Int) = compare first second := by
  rcases Nat.lt_trichotomy first second with less | same | more
  · rw [compare_lt_iff_lt.mpr less, compare_lt_iff_lt.mpr (Int.ofNat_lt.mpr less)]
  · rw [same, compare_eq_iff_eq.mpr rfl, compare_eq_iff_eq.mpr rfl]
  · rw [compare_gt_iff_gt.mpr more, compare_gt_iff_gt.mpr (Int.ofNat_lt.mpr more)]

theorem compare_neg (first second : Int) :
    compare (-first) (-second) = (compare first second).swap := by
  rcases Int.lt_trichotomy first second with less | same | more
  · rw [compare_lt_iff_lt.mpr less, compare_gt_iff_gt.mpr (Int.neg_lt_neg less)]
    rfl
  · rw [same, compare_eq_iff_eq.mpr rfl, compare_eq_iff_eq.mpr rfl]
    rfl
  · rw [compare_gt_iff_gt.mpr more, compare_lt_iff_lt.mpr (Int.neg_lt_neg more)]
    rfl

/-- Numbers that are defined compare as their ranks do. -/
theorem compare_eq_rank {x y : UnpackedFloat} (definedLeft : x.isNaN = false)
    (definedRight : y.isNaN = false) :
    x.compare y = some (compare (unpackedRank x) (unpackedRank y)) := by
  -- All pairs of kinds are told apart by their sign alone, except for two
  -- finite numbers of one sign.
  rcases x with ⟨_ | _⟩ | _ | ⟨_⟩ | ⟨_ | _, mantissa, exponent, _⟩ <;>
    rcases y with ⟨_ | _⟩ | _ | ⟨_⟩ | ⟨_ | _, mantissa', exponent', _⟩ <;>
    first
    | rfl
    | exact absurd definedLeft (by decide)
    | exact absurd definedRight (by decide)
    | skip
  case finite.negative.finite.negative =>
    show some ((compare exponent exponent').then (compare mantissa mantissa')).swap =
      some (compare (toLex ((-1 : Int), toLex (-exponent, -(mantissa : Int))))
        (toLex (-1, toLex (-exponent', -(mantissa' : Int)))))
    simp only [Prod.Lex.compare_def, compareLex, compareOn, ofLex_toLex, compare_neg,
      compare_natCast, Ordering.swap_then]
    rfl
  case finite.positive.finite.positive =>
    show some ((compare exponent exponent').then (compare mantissa mantissa')) =
      some (compare (toLex ((1 : Int), toLex (exponent, (mantissa : Int))))
        (toLex (1, toLex (exponent', (mantissa' : Int)))))
    simp only [Prod.Lex.compare_def, compareLex, compareOn, ofLex_toLex, compare_natCast]
    rfl

variable {x y : Float}

theorem le_iff_rank (definedLeft : x.isNaN = false) (definedRight : y.isNaN = false) :
    x ≤ y ↔ rank x ≤ rank y := by
  have compared := compare_eq_rank definedLeft definedRight
  have unfolded : x ≤ y ↔ (x.toModel.unpack.compare y.toModel.unpack).any (·.isLE) = true :=
    decide_eq_true_iff
  rw [unfolded, compared, Option.any_some, ← compare_le_iff_le]
  exact Ordering.isLE_iff_ne_gt

theorem lt_iff_rank (definedLeft : x.isNaN = false) (definedRight : y.isNaN = false) :
    x < y ↔ rank x < rank y := by
  have compared := compare_eq_rank definedLeft definedRight
  have unfolded : x < y ↔ (x.toModel.unpack.compare y.toModel.unpack == some .lt) = true :=
    decide_eq_true_iff
  rw [unfolded, compared, beq_iff_eq, Option.some_inj, compare_lt_iff_lt]
  rfl

theorem beq_iff_rank (definedLeft : x.isNaN = false) (definedRight : y.isNaN = false) :
    (x == y) = true ↔ rank x = rank y := by
  have compared := compare_eq_rank definedLeft definedRight
  have unfolded : (x == y) = (x.toModel.unpack.compare y.toModel.unpack == some .eq) := rfl
  rw [unfolded, compared, beq_iff_eq, Option.some_inj, compare_eq_iff_eq]
  rfl

theorem not_le_iff_lt (definedLeft : x.isNaN = false) (definedRight : y.isNaN = false) :
    ¬ x ≤ y ↔ y < x := by
  rw [le_iff_rank definedLeft definedRight, lt_iff_rank definedRight definedLeft, not_le]

end Numeric
end CharacterSheet
