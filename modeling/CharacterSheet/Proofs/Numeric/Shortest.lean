import CharacterSheet.Proofs.Numeric.Scientific

/-!
# The shortest decimal denotes its double

The search for the shortest decimal that denotes a double takes only decimals
that are read as that double, and the grids it tries become so fine that the
point below the double is less than a quarter of a unit away from it.  So the
search ends with a hit, and what it finds is read as the double.
-/

namespace CharacterSheet
namespace Numeric

variable {x : Float} {mantissa : ℕ} {exponent : ℤ}

/-- Comparing powers of ten and of two by exponents only.  Ten is between the
third root of the tenth power of two and the root of order 28 of its power 93. -/
theorem ten_zpow_le {tens twos : ℤ} (above : 10 * tens ≤ 3 * twos) (below : 93 * tens ≤ 28 * twos) :
    (10 : ℚ) ^ tens ≤ 2 ^ twos := by
  rcases Int.le_total 0 tens with nonneg | negative
  · have cubed : ((10 : ℚ) ^ tens) ^ 3 ≤ (2 ^ twos) ^ 3 := by
      calc ((10 : ℚ) ^ tens) ^ 3 = (10 ^ 3) ^ tens := by
            rw [← zpow_natCast, ← zpow_natCast, zpow_comm]
        _ ≤ (2 ^ 10) ^ tens := zpow_le_zpow_left₀ nonneg (by norm_num) (by norm_num)
        _ = 2 ^ (10 * tens) := by rw [zpow_mul]; norm_cast
        _ ≤ 2 ^ (3 * twos) := zpow_le_zpow_right₀ (by norm_num) above
        _ = (2 ^ twos) ^ 3 := by rw [mul_comm, zpow_mul]; norm_cast
    exact le_of_pow_le_pow_left₀ (by decide) (by positivity) cubed
  · have inverse : ((2 : ℚ) ^ (-twos)) ^ 28 ≤ (10 ^ (-tens)) ^ 28 := by
      calc ((2 : ℚ) ^ (-twos)) ^ 28 = 2 ^ (28 * -twos) := by rw [mul_comm, zpow_mul]; norm_cast
        _ ≤ 2 ^ (93 * -tens) := zpow_le_zpow_right₀ (by norm_num) (by omega)
        _ = (2 ^ 93) ^ (-tens) := by rw [zpow_mul]; norm_cast
        _ ≤ (10 ^ 28) ^ (-tens) := zpow_le_zpow_left₀ (by omega) (by norm_num) (by norm_num)
        _ = (10 ^ (-tens)) ^ 28 := by rw [← zpow_natCast, ← zpow_natCast, zpow_comm]
    have reversed := le_of_pow_le_pow_left₀ (by decide) (by positivity) inverse
    rw [zpow_neg, zpow_neg] at reversed
    exact (inv_le_inv₀ (by positivity) (by positivity)).mp reversed

namespace Decimal

theorem eq_of_denotes {d : Decimal} (denotes : d.denotes x = true) : d.toFloat = x :=
  Float.toBits_inj.mp (eq_of_beq denotes)

/-- The point below a double on a decimal grid. -/
theorem below_bounds (d : Dyadic) (grid : ℤ) :
    ((below d grid).1 : ℚ) * 10 ^ grid ≤ d.mantissa * 2 ^ d.exponent ∧
      (d.mantissa * 2 ^ d.exponent : ℚ) < ((below d grid).1 + 1) * 10 ^ grid := by
  set numerator := d.mantissa * powerOfTwo d.exponent.toNat * Nat.pow 10 (-grid).toNat
    with numerator_eq
  set denominator := powerOfTwo (-d.exponent).toNat * Nat.pow 10 grid.toNat with denominator_eq
  have positive : 0 < denominator :=
    Nat.mul_pos (Nat.pow_pos (by decide)) (Nat.pow_pos (by decide))
  have positiveCast : (0 : ℚ) < denominator := Nat.cast_pos.mpr positive
  have quotient : (d.mantissa * 2 ^ d.exponent : ℚ) = numerator / denominator * 10 ^ grid := by
    have powerOfTwo_cast (power : ℕ) : (powerOfTwo power : ℚ) = 2 ^ power := Nat.cast_pow 2 power
    have powerOfTen_cast (power : ℕ) : (Nat.pow 10 power : ℚ) = 10 ^ power := Nat.cast_pow 10 power
    rw [zpow_eq_div two_ne_zero, zpow_eq_div (by norm_num : (10 : ℚ) ≠ 0), numerator_eq,
      denominator_eq, Nat.cast_mul, Nat.cast_mul, Nat.cast_mul, powerOfTwo_cast, powerOfTwo_cast,
      powerOfTen_cast, powerOfTen_cast]
    field_simp
  have unit : (0 : ℚ) < 10 ^ grid := by positivity
  rw [quotient]
  constructor
  · refine mul_le_mul_of_nonneg_right ?_ unit.le
    rw [le_div_iff₀ positiveCast]
    exact_mod_cast Nat.div_mul_le_self numerator denominator
  · refine mul_lt_mul_of_pos_right ?_ unit
    rw [div_lt_iff₀ positiveCast]
    have less : numerator < (numerator / denominator + 1) * denominator := by
      rw [Nat.add_one_mul]
      exact Nat.lt_div_mul_add positive
    exact_mod_cast less

theorem onGrid?_denotes {halfUp : Bool} {grid : ℤ} {found : Decimal}
    (hit : onGrid? halfUp x grid = some found) : found.denotes x = true := by
  simp only [onGrid?] at hit
  split at hit
  · cases hit
    assumption
  · cases hit
    assumption
  · cases hit
    split <;> assumption
  · cases hit
    assumption
  · cases hit
    assumption
  · cases hit

theorem onGrid?_of_lower {halfUp : Bool} {grid : ℤ}
    (lower : (⟨(below (Dyadic.ofFloat x) grid).1, grid⟩ : Decimal).denotes x = true) :
    (onGrid? halfUp x grid).isSome = true := by
  simp only [onGrid?, lower]
  split <;> first | rfl | simp_all

theorem search_denotes {halfUp : Bool} {grids : ℕ} {grid : ℤ}
    (hit : (onGrid? halfUp x (grid - grids)).isSome = true) :
    (search halfUp x (grids + 1) grid).denotes x = true := by
  induction grids generalizing grid with
  | zero =>
    rw [Nat.cast_zero, sub_zero] at hit
    rcases Option.isSome_iff_exists.mp hit with ⟨found, hit⟩
    rw [search, hit]
    exact onGrid?_denotes hit
  | succ grids inductionHypothesis =>
    rw [search]
    split
    · rename_i found coarse
      exact onGrid?_denotes coarse
    · apply inductionHypothesis
      rwa [sub_sub, add_comm (1 : ℤ), ← Nat.cast_add_one]

/-- A grid is fine enough if its unit is at most a quarter of that of the
double. -/
theorem denotes_lower (parts : HasParts x mantissa exponent) {grid : ℤ}
    (fine : (10 : ℚ) ^ grid ≤ 2 ^ (exponent - 2)) :
    (⟨(below (Dyadic.ofFloat x) grid).1, grid⟩ : Decimal).denotes x = true := by
  have unit : (0 : ℚ) < 2 ^ exponent := by positivity
  have quarter : (2 : ℚ) ^ (exponent - 2) = 2 ^ exponent / 4 := by
    rw [zpow_sub₀ two_ne_zero]
    norm_num
  have bounds := below_bounds (Dyadic.ofFloat x) grid
  rw [ofFloat_eq parts.unpacked] at bounds ⊢
  generalize (below ⟨mantissa, exponent⟩ grid).1 = low at bounds ⊢
  rcases bounds with ⟨atMost, above⟩
  dsimp only at atMost above
  have atLeast : (1 : ℚ) ≤ mantissa := by exact_mod_cast parts.canonical.positive
  have full : (2 : ℚ) ^ exponent ≤ mantissa * 2 ^ exponent := le_mul_of_one_le_left unit.le atLeast
  have positive : 0 < low := by
    rcases Nat.eq_zero_or_pos low with rfl | positive
    · rw [Nat.cast_zero, zero_add, one_mul] at above
      linarith
    · exact positive
  have read : (⟨low, grid⟩ : Decimal).toFloat = x := by
    rw [toFloat_eq positive]
    refine parts.ofRational_eq (mul_pos (Nat.cast_pos.mpr positive) (by positivity)) ?_
    rw [div_sub' unit.ne', abs_div, abs_of_pos unit, div_lt_iff₀ unit, abs_lt, value]
    constructor <;> linarith
  rw [denotes, read]
  exact beq_self_eq_true _

/-- The shortest decimal of a positive double is read as that double. -/
theorem toFloat_ofFloat (parts : HasParts x mantissa exponent) (halfUp : Bool) :
    (ofFloat halfUp x).toFloat = x := by
  have small : mantissa.log2 ≤ 52 :=
    Nat.le_of_lt_succ ((Nat.log2_lt parts.canonical.positive.ne').mpr parts.canonical.small)
  have least := parts.canonical.least
  have bounded := parts.bounded
  rw [ofFloat, ofFloat_eq parts.unpacked]
  dsimp only
  rw [if_neg parts.canonical.positive.ne']
  refine eq_of_denotes (search_denotes (onGrid?_of_lower (denotes_lower parts ?_)))
  exact ten_zpow_le (by omega) (by omega)

end Decimal

end Numeric
end CharacterSheet
