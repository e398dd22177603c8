import CharacterSheet.Numeric.Decimal
import Mathlib

/-!
# Rounding to the nearest double

The result of an operation on doubles is rounded by shifting bits out of a
mantissa, of which two are kept, and then looking at these two.  Here the
rounded number is described by the exact one: it is the nearest on a grid whose
exponent depends on the magnitude, and a half goes to the even neighbour.
`roundWithAccuracy_eq` says that shifting bits leads there.
-/

namespace CharacterSheet
namespace Numeric

open Float.Model (UnpackedFloat totalExponent)
open Float.Model.Format (binary64)
open Float.Model.UnpackedFloat

/-! ## The nearest number -/

/-- The nearest whole number; a half goes to the even neighbour. -/
def nearestEven (x : ℚ) : ℕ :=
  if x - ⌊x⌋₊ < 1 / 2 ∨ (x - ⌊x⌋₊ = 1 / 2 ∧ ⌊x⌋₊ % 2 = 0) then ⌊x⌋₊ else ⌊x⌋₊ + 1

/-- The exponent of the grid of doubles around a positive number. -/
def gridExponent (q : ℚ) : ℤ :=
  max (Int.log 2 q - 52) (-1074)

/-- A mantissa of at most 53 bits, or the next power of two, with an exponent
of the grid. -/
def onGrid (mantissa : ℕ) (exponent : ℤ) : UnpackedFloat :=
  if empty : mantissa = 0 then .zero .positive
  else if mantissa < 2 ^ 53 then .finite .positive mantissa exponent (Nat.pos_of_ne_zero empty)
  else .finite .positive (2 ^ 52) (exponent + 1) (by decide)

/-- The double nearest to a positive number, as if exponents had no bound. -/
def nearest (q : ℚ) : UnpackedFloat :=
  onGrid (nearestEven (q / 2 ^ gridExponent q)) (gridExponent q)

/-- A power as a fraction of natural powers. -/
theorem zpow_eq_div {base : ℚ} (nonzero : base ≠ 0) (exponent : ℤ) :
    base ^ exponent = base ^ exponent.toNat / base ^ (-exponent).toNat := by
  have split : exponent = exponent.toNat - (-exponent).toNat := by omega
  conv_lhs => rw [split, zpow_sub₀ nonzero, zpow_natCast, zpow_natCast]

theorem floor_eq {x tail : ℚ} {whole : ℕ} (split : x = whole + tail) (nonneg : 0 ≤ tail)
    (small : tail < 1) : ⌊x⌋₊ = whole := by
  rw [Nat.floor_eq_iff (by rw [split]; positivity), split]
  constructor <;> linarith

/-- A number less than a half away is the nearest. -/
theorem nearestEven_eq {x : ℚ} {whole : ℕ} (near : |x - whole| < 1 / 2) :
    nearestEven x = whole := by
  rcases abs_lt.mp near with ⟨above, below⟩
  rcases le_or_gt (whole : ℚ) x with least | less
  · have floor : ⌊x⌋₊ = whole :=
      floor_eq (add_sub_cancel (whole : ℚ) x).symm (by linarith) (by linarith)
    rw [nearestEven, floor, if_pos (Or.inl below)]
  · cases whole with
    | zero =>
      have floor : ⌊x⌋₊ = 0 := Nat.floor_of_nonpos (by simpa using less.le)
      rw [nearestEven, floor]
      exact if_pos (Or.inl below)
    | succ lower =>
      push_cast at *
      have floor : ⌊x⌋₊ = lower :=
        floor_eq (add_sub_cancel (lower : ℚ) x).symm (by linarith) (by linarith)
      rw [nearestEven, floor]
      refine if_neg ?_
      rintro (near | ⟨half, -⟩) <;> linarith

/-! ## Bits that are shifted out -/

/-- A mantissa with two more bits stands for a number: the first bit says
whether there is a half more, and the second whether there is anything beyond
that. -/
def Represents (extended : ExtendedMantissa) (x : ℚ) : Prop :=
  ∃ tail : ℚ, x = extended.mantissa + (if extended.roundBit then 1 / 2 else 0) + tail ∧
    0 ≤ tail ∧ tail < 1 / 2 ∧ (extended.stickyBit = true ↔ tail ≠ 0)

variable {extended : ExtendedMantissa} {x : ℚ}

theorem Represents.shiftRightOne (represents : Represents extended x) :
    Represents extended.shiftRightOne (x / 2) := by
  rcases represents with ⟨tail, rfl, nonneg, small, sticky⟩
  rcases extended with ⟨mantissa, roundBit, stickyBit⟩
  have halves : (mantissa : ℚ) = 2 * (mantissa / 2 : ℕ) + (mantissa % 2 : ℕ) := by
    exact_mod_cast (Nat.div_add_mod mantissa 2).symm
  refine ⟨(if roundBit then 1 / 4 else 0) + tail / 2, ?_, ?_, ?_, ?_⟩
  · rcases Nat.mod_two_eq_zero_or_one mantissa with even | odd
    · rw [even] at halves
      cases roundBit <;> simp [ExtendedMantissa.shiftRightOne, even, halves] <;> ring
    · rw [odd] at halves
      cases roundBit <;> simp [ExtendedMantissa.shiftRightOne, odd, halves] <;> ring
  · cases roundBit <;> simp <;> linarith
  · cases roundBit <;> simp <;> linarith
  · cases roundBit with
    | false => simpa [ExtendedMantissa.shiftRightOne] using sticky
    | true =>
      have positive : (1 / 4 : ℚ) + tail / 2 ≠ 0 := by positivity
      simpa [ExtendedMantissa.shiftRightOne] using positive

theorem Represents.shiftRight (represents : Represents extended x) (count : ℕ) :
    Represents (extended >>> count) (x / 2 ^ count) := by
  induction count with
  | zero =>
    rw [pow_zero, div_one]
    exact represents
  | succ count inductionHypothesis =>
    have once := inductionHypothesis.shiftRightOne
    rwa [div_div, ← pow_succ] at once

theorem Represents.roundedMantissa (represents : Represents extended x) :
    extended.roundedMantissa = nearestEven x := by
  rcases represents with ⟨tail, rfl, nonneg, small, sticky⟩
  rcases extended with ⟨mantissa, roundBit, stickyBit⟩
  have floor : ⌊(mantissa : ℚ) + (if roundBit then 1 / 2 else 0) + tail⌋₊ = mantissa := by
    refine floor_eq (add_assoc _ _ _) ?_ ?_ <;> cases roundBit <;> simp <;> linarith
  rw [nearestEven]
  simp only [floor]
  cases roundBit with
  | false =>
    have below : (mantissa : ℚ) + 0 + tail - mantissa < 1 / 2 := by linarith
    rw [if_neg Bool.false_ne_true, if_pos (Or.inl below)]
    cases stickyBit <;> rfl
  | true =>
    rw [if_pos rfl]
    cases stickyBit with
    | false =>
      obtain rfl : tail = 0 := by simpa using sticky
      have half : (mantissa : ℚ) + 1 / 2 + 0 - mantissa = 1 / 2 := by ring
      rcases Nat.mod_two_eq_zero_or_one mantissa with even | odd
      · rw [if_pos (Or.inr ⟨half, even⟩)]
        exact congrArg (mantissa + ·) even
      · rw [if_neg (by simp [odd])]
        exact congrArg (mantissa + ·) odd
    | true =>
      have positive : tail ≠ 0 := sticky.mp rfl
      have above : 0 < tail := lt_of_le_of_ne nonneg (Ne.symm positive)
      refine (if_neg ?_).symm
      rintro (near | ⟨half, -⟩) <;> linarith

theorem mantissa_ofMantissaAndAccuracy (mantissa : ℕ) (accuracy : Accuracy) :
    (ExtendedMantissa.ofMantissaAndAccuracy mantissa accuracy).mantissa = mantissa := by
  rcases accuracy with _ | _ | _ | _ <;> rfl

theorem Represents.bounds (represents : Represents extended x) :
    (extended.mantissa : ℚ) ≤ x ∧ x < extended.mantissa + 1 := by
  rcases represents with ⟨tail, rfl, nonneg, small, -⟩
  cases extended.roundBit <;> simp <;> constructor <;> linarith

/-! ## The exponent of the grid -/

theorem targetExponent_eq (total : ℤ) :
    binary64.targetExponent total = max (total - 53) (-1074) := rfl

theorem zpow_log2_le {mantissa : ℕ} (positive : 0 < mantissa) :
    (2 : ℚ) ^ (mantissa.log2 : ℤ) ≤ mantissa := by
  exact_mod_cast Nat.log2_self_le positive.ne'

theorem lt_zpow_log2 (mantissa : ℕ) : (mantissa + 1 : ℚ) ≤ 2 ^ (mantissa.log2 + 1 : ℤ) := by
  exact_mod_cast Nat.lt_log2_self (n := mantissa)

variable {q : ℚ} {mantissa : ℕ} {exponent : ℤ}

theorem lt_two_zpow_iff (positive : 0 < q) : q < 2 ^ exponent ↔ Int.log 2 q < exponent := by
  exact_mod_cast Int.lt_zpow_iff_log_lt (b := 2) (by decide) positive (x := exponent)

theorem two_zpow_le_iff (positive : 0 < q) : 2 ^ exponent ≤ q ↔ exponent ≤ Int.log 2 q := by
  exact_mod_cast Int.zpow_le_iff_le_log (b := 2) (by decide) positive (x := exponent)

/-- The magnitude of a number is that of the whole part of its mantissa. -/
theorem log_eq (positive : 0 < mantissa) (atLeast : mantissa ≤ q / 2 ^ exponent)
    (below : q / 2 ^ exponent < mantissa + 1) : Int.log 2 q = mantissa.log2 + exponent := by
  have unit : (0 : ℚ) < 2 ^ exponent := by positivity
  rw [le_div_iff₀ unit] at atLeast
  rw [div_lt_iff₀ unit] at below
  have positiveQ : 0 < q := lt_of_lt_of_le (mul_pos (Nat.cast_pos.mpr positive) unit) atLeast
  apply le_antisymm
  · rw [← Int.lt_add_one_iff, ← lt_two_zpow_iff positiveQ]
    calc q < (mantissa + 1) * 2 ^ exponent := below
      _ ≤ 2 ^ (mantissa.log2 + 1 : ℤ) * 2 ^ exponent :=
        mul_le_mul_of_nonneg_right (lt_zpow_log2 mantissa) unit.le
      _ = 2 ^ (mantissa.log2 + exponent + 1) := by
        rw [← zpow_add₀ (by norm_num)]
        ring_nf
  · rw [← two_zpow_le_iff positiveQ]
    calc (2 : ℚ) ^ (mantissa.log2 + exponent : ℤ) = 2 ^ (mantissa.log2 : ℤ) * 2 ^ exponent :=
        zpow_add₀ (by norm_num) _ _
      _ ≤ mantissa * 2 ^ exponent := mul_le_mul_of_nonneg_right (zpow_log2_le positive) unit.le
      _ ≤ q := atLeast

/-- Shifting goes to the grid, unless the mantissa lacks bits. -/
theorem targetExponent_eq_gridExponent (positive : 0 < q) (atLeast : mantissa ≤ q / 2 ^ exponent)
    (below : q / 2 ^ exponent < mantissa + 1) (fine : exponent ≤ gridExponent q) :
    binary64.targetExponent (totalExponent mantissa exponent) = gridExponent q := by
  rw [targetExponent_eq, totalExponent]
  rcases Nat.eq_zero_or_pos mantissa with rfl | some
  · -- Everything is below the unit, so the grid is the finest.
    have log_lt : Int.log 2 q < exponent := by
      rw [← lt_two_zpow_iff positive]
      have unit : (0 : ℚ) < 2 ^ exponent := by positivity
      simpa [div_lt_iff₀ unit] using below
    have none : Nat.log2 0 = 0 := rfl
    rw [none]
    rw [gridExponent] at fine ⊢
    omega
  · rw [gridExponent, log_eq some atLeast below]
    omega

theorem lt_two_pow_grid (positive : 0 < q) : q / 2 ^ gridExponent q < 2 ^ 53 := by
  have unit : (0 : ℚ) < 2 ^ gridExponent q := by positivity
  rw [div_lt_iff₀ unit, ← zpow_natCast, ← zpow_add₀ (by norm_num), lt_two_zpow_iff positive,
    gridExponent]
  omega

theorem nearestEven_le {x : ℚ} {bound : ℕ} (nonneg : 0 ≤ x) (below : x < bound) :
    nearestEven x ≤ bound := by
  have floor_lt : ⌊x⌋₊ < bound := (Nat.floor_lt nonneg).mpr below
  rw [nearestEven]
  split <;> omega

theorem le_nearestEven {x : ℚ} {bound : ℕ} (atLeast : bound ≤ x) : bound ≤ nearestEven x := by
  have le_floor : bound ≤ ⌊x⌋₊ := Nat.le_floor atLeast
  rw [nearestEven]
  split <;> omega

/-! ## Rounding -/

theorem shiftToTargetExponent_of_lt (small : mantissa < 2 ^ 53) (least : -1074 ≤ exponent) :
    shiftToTargetExponent binary64 mantissa exponent .exact =
      (⟨mantissa, false, false⟩, exponent) := by
  have bits : mantissa.log2 ≤ 52 := by
    rcases Nat.eq_zero_or_pos mantissa with rfl | some
    · decide
    · exact Nat.le_of_lt_succ ((Nat.log2_lt some.ne').mpr small)
  have noShift : (binary64.targetExponent (totalExponent mantissa exponent) - exponent).toNat = 0 := by
    rw [targetExponent_eq, totalExponent]
    omega
  rw [shiftToTargetExponent, shiftToExponent, noShift]
  simp only [Nat.cast_zero, add_zero]
  rfl

theorem shiftToTargetExponent_carry (least : -1074 ≤ exponent) :
    shiftToTargetExponent binary64 (2 ^ 53) exponent .exact =
      (⟨2 ^ 52, false, false⟩, exponent + 1) := by
  have oneShift : (binary64.targetExponent (totalExponent (2 ^ 53) exponent) - exponent).toNat = 1 := by
    rw [targetExponent_eq, totalExponent, Nat.log2_two_pow]
    omega
  rw [shiftToTargetExponent, shiftToExponent, oneShift]
  rfl

/-- After rounding, the mantissa is shifted once more if it has a bit too
many. -/
theorem shifted_eq_onGrid (atMost : mantissa ≤ 2 ^ 53) (least : -1074 ≤ exponent) :
    (if empty : (shiftToTargetExponent binary64 mantissa exponent .exact).1.mantissa = 0 then
        UnpackedFloat.zero .positive
      else
        .finite .positive (shiftToTargetExponent binary64 mantissa exponent .exact).1.mantissa
          (shiftToTargetExponent binary64 mantissa exponent .exact).2
          (Nat.pos_of_ne_zero empty)) = onGrid mantissa exponent := by
  rcases Nat.lt_or_eq_of_le atMost with small | rfl
  · simp only [shiftToTargetExponent_of_lt small least, onGrid, if_pos small]
  · simp only [shiftToTargetExponent_carry least]
    rfl

/-- A mantissa with bits to tell what is beyond it is rounded to the double
nearest to the number that it stands for. -/
theorem roundWithAccuracy_eq {accuracy : Accuracy} (positive : 0 < q)
    (represents : Represents (.ofMantissaAndAccuracy mantissa accuracy) (q / 2 ^ exponent))
    (fine : exponent ≤ gridExponent q) :
    roundWithAccuracy binary64 .positive mantissa exponent accuracy = nearest q := by
  have bounds := represents.bounds
  rw [mantissa_ofMantissaAndAccuracy] at bounds
  have target := targetExponent_eq_gridExponent positive bounds.1 bounds.2 fine
  have least : -1074 ≤ gridExponent q := le_max_right _ _
  obtain ⟨count, reach⟩ : ∃ count : ℕ, gridExponent q = exponent + count :=
    Int.le.dest fine |>.imp fun _ same => same.symm
  have scaled : q / 2 ^ exponent / 2 ^ count = q / 2 ^ gridExponent q := by
    rw [div_div, reach, zpow_add₀ (by norm_num), zpow_natCast]
  have shifted : shiftToTargetExponent binary64 mantissa exponent accuracy =
      (ExtendedMantissa.ofMantissaAndAccuracy mantissa accuracy >>> count, gridExponent q) := by
    have amount : (gridExponent q - exponent).toNat = count := by omega
    simp only [shiftToTargetExponent, shiftToExponent, target, amount]
    rw [reach]
  have rounded := (represents.shiftRight count).roundedMantissa
  rw [scaled] at rounded
  have atMost : nearestEven (q / 2 ^ gridExponent q) ≤ 2 ^ 53 :=
    nearestEven_le (by positivity) (by exact_mod_cast lt_two_pow_grid positive)
  simp only [roundWithAccuracy, shifted, rounded]
  exact shifted_eq_onGrid atMost least

/-! ## Numbers that are nearly doubles -/

/-- The mantissas and exponents of positive doubles, as if exponents had no
upper bound. -/
structure Canonical (mantissa : ℕ) (exponent : ℤ) : Prop where
  positive : 0 < mantissa
  small : mantissa < 2 ^ 53
  least : -1074 ≤ exponent
  full : 2 ^ 52 ≤ mantissa ∨ exponent = -1074

theorem gridExponent_eq (bounds : 2 ^ 52 ≤ q / 2 ^ exponent ∨ exponent = -1074)
    (below : q / 2 ^ exponent < 2 ^ 53) (least : -1074 ≤ exponent) (positive : 0 < q) :
    gridExponent q = exponent := by
  have unit : (0 : ℚ) < 2 ^ exponent := by positivity
  rw [div_lt_iff₀ unit, ← zpow_natCast, ← zpow_add₀ (by norm_num), lt_two_zpow_iff positive]
    at below
  rw [le_div_iff₀ unit, ← zpow_natCast, ← zpow_add₀ (by norm_num), two_zpow_le_iff positive]
    at bounds
  rw [gridExponent]
  omega

/-- A number less than a quarter of a unit away from a double is rounded to
it. -/
theorem nearest_eq (canonical : Canonical mantissa exponent) (positive : 0 < q)
    (close : |q / 2 ^ exponent - mantissa| < 1 / 4) :
    nearest q = .finite .positive mantissa exponent canonical.positive := by
  rcases abs_lt.mp close with ⟨above, below⟩
  have small : (mantissa + 1 : ℚ) ≤ 2 ^ 53 := by exact_mod_cast canonical.small
  have belowNext : q / 2 ^ exponent < 2 ^ 53 := by linarith
  by_cases onSameGrid : 2 ^ 52 ≤ q / 2 ^ exponent ∨ exponent = -1074
  · rw [nearest, gridExponent_eq onSameGrid belowNext canonical.least positive,
      nearestEven_eq (lt_trans close (by norm_num)), onGrid, dif_neg canonical.positive.ne',
      if_pos canonical.small]
  · -- The double is a power of two, below which the grid is finer.
    rw [not_or, not_le] at onSameGrid
    have full : 2 ^ 52 ≤ mantissa := canonical.full.resolve_right onSameGrid.2
    have fullCast : (2 : ℚ) ^ 52 ≤ mantissa := by exact_mod_cast full
    obtain rfl : mantissa = 2 ^ 52 := by
      have less : (mantissa : ℚ) < 2 ^ 52 + 1 := by linarith
      have lessNat : mantissa < 2 ^ 52 + 1 := by exact_mod_cast less
      omega
    have doubled : q / 2 ^ (exponent - 1) = 2 * (q / 2 ^ exponent) := by
      rw [zpow_sub_one₀ (by norm_num)]
      field_simp
    have twice : |q / 2 ^ (exponent - 1) - (2 ^ 53 : ℕ)| < 1 / 2 := by
      rw [doubled, abs_lt]
      push_cast at *
      constructor <;> linarith
    have least := canonical.least
    have grid : gridExponent q = exponent - 1 := by
      refine gridExponent_eq (Or.inl ?_) ?_ (by omega) positive
      · rw [doubled]
        push_cast at *
        linarith
      · rw [doubled]
        linarith
    rw [nearest, grid, nearestEven_eq twice]
    simp only [onGrid, Nat.lt_irrefl, if_false, sub_add_cancel]
    rfl

/-- A double is the nearest to itself. -/
theorem nearest_self (canonical : Canonical mantissa exponent) :
    nearest (mantissa * 2 ^ exponent) = .finite .positive mantissa exponent canonical.positive := by
  have unit : (0 : ℚ) < 2 ^ exponent := by positivity
  refine nearest_eq canonical (mul_pos (Nat.cast_pos.mpr canonical.positive) unit) ?_
  rw [mul_div_cancel_right₀ _ unit.ne', sub_self]
  norm_num

end Numeric
end CharacterSheet
