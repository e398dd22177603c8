import CharacterSheet.Proofs.Numeric.Packing

/-!
# Decimals denote nearest doubles

A decimal is turned into a double by one multiplication or division, of small
doubles if its digits and its exponent are small and of exact numbers
otherwise.  Either way there is one rounding, so the result is the double
nearest to the decimal, and two decimals of the same value denote the same
double.
-/

namespace CharacterSheet
namespace Numeric

open Float.Model (UnpackedFloat totalExponent)
open Float.Model.Format (binary64)
open Float.Model.UnpackedFloat

/-! ## Products and quotients -/

variable {first second : ℕ} {firstExponent secondExponent : ℤ}

theorem represents_exact (mantissa : ℕ) :
    Represents (.ofMantissaAndAccuracy mantissa .exact) mantissa :=
  ⟨0, by simp [ExtendedMantissa.ofMantissaAndAccuracy], le_refl 0, by norm_num,
    by simp [ExtendedMantissa.ofMantissaAndAccuracy]⟩

theorem mul_finite (positive : 0 < first) (positiveSecond : 0 < second)
    (fine : firstExponent + secondExponent ≤
      gridExponent (first * 2 ^ firstExponent * (second * 2 ^ secondExponent))) :
    mul binary64 (.finite .positive first firstExponent positive)
        (.finite .positive second secondExponent positiveSecond) =
      nearest (first * 2 ^ firstExponent * (second * 2 ^ secondExponent)) := by
  refine roundWithAccuracy_eq (by positivity) ?_ fine
  have scaled : (first * 2 ^ firstExponent * (second * 2 ^ secondExponent) : ℚ) /
      2 ^ (firstExponent + secondExponent) = (first * second : ℕ) := by
    rw [zpow_add₀ (by norm_num)]
    push_cast
    field_simp
  rw [scaled]
  exact represents_exact _

theorem represents_quotient (dividend : ℕ) {divisor : ℕ} (positive : 0 < divisor) :
    Represents (.ofMantissaAndAccuracy (dividend / divisor)
      (accuracyOfFraction (dividend % divisor) divisor)) (dividend / divisor : ℚ) := by
  have divisorCast : (0 : ℚ) < divisor := Nat.cast_pos.mpr positive
  have split : (dividend / divisor : ℚ) =
      (dividend / divisor : ℕ) + (dividend % divisor : ℕ) / divisor := by
    have whole : (dividend : ℚ) = divisor * (dividend / divisor : ℕ) + (dividend % divisor : ℕ) := by
      exact_mod_cast (Nat.div_add_mod dividend divisor).symm
    rw [whole, add_div, mul_div_cancel_left₀ _ divisorCast.ne']
  have small : dividend % divisor < divisor := Nat.mod_lt _ positive
  rw [split]
  generalize dividend / divisor = whole
  generalize dividend % divisor = rest at small ⊢
  have restBelow : (rest / divisor : ℚ) < 1 := by
    rw [div_lt_one divisorCast]
    exact_mod_cast small
  have restNonneg : (0 : ℚ) ≤ rest / divisor := by positivity
  by_cases none : rest = 0
  · subst none
    simpa [accuracyOfFraction] using represents_exact whole
  · have restPositive : (0 : ℚ) < rest / divisor :=
      div_pos (Nat.cast_pos.mpr (Nat.pos_of_ne_zero none)) divisorCast
    rw [accuracyOfFraction, if_neg none]
    rcases Nat.lt_trichotomy (2 * rest) divisor with less | half | more
    · have below : (rest / divisor : ℚ) < 1 / 2 := by
        rw [div_lt_div_iff₀ divisorCast two_pos]
        exact_mod_cast (by omega : rest * 2 < 1 * divisor)
      rw [compare_lt_iff_lt.mpr less]
      exact ⟨rest / divisor, by simp [ExtendedMantissa.ofMantissaAndAccuracy], restNonneg, below,
        by simpa [ExtendedMantissa.ofMantissaAndAccuracy] using restPositive.ne'⟩
    · have exactly : (rest / divisor : ℚ) = 1 / 2 := by
        rw [div_eq_div_iff divisorCast.ne' two_ne_zero]
        exact_mod_cast (by omega : rest * 2 = 1 * divisor)
      rw [compare_eq_iff_eq.mpr half, exactly]
      exact ⟨0, by simp [ExtendedMantissa.ofMantissaAndAccuracy], le_refl 0, by norm_num,
        by simp [ExtendedMantissa.ofMantissaAndAccuracy]⟩
    · have above : (1 / 2 : ℚ) < rest / divisor := by
        rw [div_lt_div_iff₀ two_pos divisorCast]
        exact_mod_cast (by omega : 1 * divisor < rest * 2)
      rw [compare_gt_iff_gt.mpr more]
      refine ⟨rest / divisor - 1 / 2, ?_, by linarith, by linarith, ?_⟩
      · simp only [ExtendedMantissa.ofMantissaAndAccuracy, if_true]
        ring
      · simpa [ExtendedMantissa.ofMantissaAndAccuracy] using (sub_pos.mpr above).ne'

theorem div_finite (firstExponent secondExponent : ℤ) (positive : 0 < first)
    (positiveSecond : 0 < second) :
    div binary64 (.finite .positive first firstExponent positive)
        (.finite .positive second secondExponent positiveSecond) =
      nearest (first * 2 ^ firstExponent / (second * 2 ^ secondExponent)) := by
  have firstCast : (0 : ℚ) < first := Nat.cast_pos.mpr positive
  have secondCast : (0 : ℚ) < second := Nat.cast_pos.mpr positiveSecond
  generalize quotient : (first * 2 ^ firstExponent / (second * 2 ^ secondExponent) : ℚ) = q
  have positiveQ : 0 < q := by
    rw [← quotient]
    positivity
  have magnitude : (first.log2 + firstExponent) - (second.log2 + 1 + secondExponent) ≤
      Int.log 2 q := by
    rw [← two_zpow_le_iff positiveQ, ← quotient, zpow_sub₀ (by norm_num), zpow_add₀ (by norm_num),
      zpow_add₀ (by norm_num) (second.log2 + 1 : ℤ)]
    have lower := zpow_log2_le positive
    have upper := lt_zpow_log2 second
    gcongr
    linarith
  set target := min (firstExponent - secondExponent)
    (binary64.targetExponent (totalExponent first firstExponent -
      totalExponent second secondExponent)) with target_eq
  have fine : target ≤ gridExponent q := by
    rw [targetExponent_eq, totalExponent, totalExponent] at target_eq
    rw [gridExponent]
    omega
  obtain ⟨shift, amount⟩ : ∃ shift : ℕ, firstExponent - secondExponent = target + shift :=
    Int.le.dest (min_le_left _ _) |>.imp fun _ same => same.symm
  have shifted : (firstExponent - secondExponent - target).toNat = shift := by omega
  have scaled : q / 2 ^ target = ((first * 2 ^ shift : ℕ) : ℚ) / second := by
    rw [← quotient]
    have exponents : (2 : ℚ) ^ firstExponent = 2 ^ secondExponent * (2 ^ target * 2 ^ shift) := by
      rw [← zpow_natCast, ← zpow_add₀ (by norm_num), ← zpow_add₀ (by norm_num)]
      congr 1
      omega
    rw [exponents]
    push_cast
    field_simp
  have represents := represents_quotient (first * 2 ^ shift) positiveSecond
  rw [← scaled] at represents
  have rounded := roundWithAccuracy_eq positiveQ represents fine
  rw [← rounded, ← Nat.shiftLeft_eq, ← shifted]
  rfl

/-! ## Whole numbers and powers of ten -/

/-- An exact number is rounded to the nearest double. -/
theorem round_eq {mantissa : ℕ} (exponent : ℤ) (positive : 0 < mantissa) :
    UnpackedFloat.round binary64 .positive mantissa exponent = nearest (mantissa * 2 ^ exponent) := by
  have unit : (0 : ℚ) < 2 ^ exponent := by positivity
  have positiveQ : (0 : ℚ) < mantissa * 2 ^ exponent := mul_pos (Nat.cast_pos.mpr positive) unit
  have quotient : (mantissa * 2 ^ exponent : ℚ) / 2 ^ exponent = mantissa :=
    mul_div_cancel_right₀ _ unit.ne'
  have target : binary64.targetExponent (totalExponent mantissa exponent) ≤
      gridExponent (mantissa * 2 ^ exponent) := by
    rw [targetExponent_eq, totalExponent, gridExponent,
      log_eq positive quotient.ge (quotient.trans_lt (lt_add_one _))]
    omega
  set shift := (exponent - binary64.targetExponent (totalExponent mantissa exponent)).toNat
    with amount
  refine roundWithAccuracy_eq positiveQ ?_ (by omega : exponent - (shift : ℤ) ≤ _)
  have scaled : (mantissa * 2 ^ exponent : ℚ) / 2 ^ (exponent - (shift : ℤ)) =
      (mantissa <<< shift : ℕ) := by
    rw [Nat.shiftLeft_eq, zpow_sub₀ (by norm_num), zpow_natCast]
    push_cast
    field_simp
  rw [scaled]
  exact represents_exact _

/-- A double that is a given number, with all bits of the mantissa. -/
def Holds (x : Float) (q : ℚ) : Prop :=
  ∃ mantissa exponent, HasParts x mantissa exponent ∧ 2 ^ 52 ≤ mantissa ∧
    q = mantissa * 2 ^ exponent

variable {x y : Float} {p q : ℚ}

theorem Holds.mul (left : Holds x p) (right : Holds y q) : x * y = ofRational (p * q) := by
  rcases left with ⟨first, firstExponent, left, full, rfl⟩
  rcases right with ⟨second, secondExponent, right, fullSecond, rfl⟩
  have firstCast : (2 : ℚ) ^ 52 ≤ first := by exact_mod_cast full
  have secondCast : (2 : ℚ) ^ 52 ≤ second := by exact_mod_cast fullSecond
  have positive : (0 : ℚ) < first * 2 ^ firstExponent * (second * 2 ^ secondExponent) := by
    have := left.canonical.positive
    have := right.canonical.positive
    positivity
  have magnitude : 104 + (firstExponent + secondExponent) ≤
      Int.log 2 (first * 2 ^ firstExponent * (second * 2 ^ secondExponent) : ℚ) := by
    rw [← two_zpow_le_iff positive]
    calc (2 : ℚ) ^ (104 + (firstExponent + secondExponent))
        = 2 ^ 52 * 2 ^ firstExponent * (2 ^ 52 * 2 ^ secondExponent) := by
          rw [zpow_add₀ (by norm_num), zpow_add₀ (by norm_num)]
          norm_num
          ring
      _ ≤ first * 2 ^ firstExponent * (second * 2 ^ secondExponent) := by gcongr
  have product := mul_finite left.canonical.positive right.canonical.positive
    (by rw [gridExponent]; omega : firstExponent + secondExponent ≤ _)
  have unfolded : x * y =
      .ofModel (.pack (UnpackedFloat.mul binary64 x.toModel.unpack y.toModel.unpack)) := rfl
  rw [unfolded, left.unpacked, right.unpacked, product]
  rfl

theorem Holds.div (left : Holds x p) (right : Holds y q) : x / y = ofRational (p / q) := by
  rcases left with ⟨first, firstExponent, left, -, rfl⟩
  rcases right with ⟨second, secondExponent, right, -, rfl⟩
  have quotient := div_finite firstExponent secondExponent left.canonical.positive
    right.canonical.positive
  have unfolded : x / y =
      .ofModel (.pack (UnpackedFloat.div binary64 x.toModel.unpack y.toModel.unpack)) := rfl
  rw [unfolded, left.unpacked, right.unpacked, quotient]
  rfl

/-- A whole number of at most 53 bits is a double. -/
theorem holds_toUInt64 {whole : ℕ} (positive : 0 < whole) (small : whole < 2 ^ 53) :
    Holds whole.toUInt64.toFloat whole := by
  have bits : whole.log2 ≤ 52 := Nat.le_of_lt_succ ((Nat.log2_lt positive.ne').mpr small)
  have bounds := (Nat.log2_eq_iff positive.ne').mp rfl
  obtain ⟨shift, total⟩ : ∃ shift, whole.log2 + shift = 52 := ⟨52 - whole.log2, by omega⟩
  have full : 2 ^ 52 ≤ whole * 2 ^ shift := by
    rw [← total, Nat.pow_add]
    exact Nat.mul_le_mul_right _ bounds.1
  have below : whole * 2 ^ shift < 2 ^ 53 := by
    rw [show 53 = whole.log2 + 1 + shift by omega, Nat.pow_add]
    exact Nat.mul_lt_mul_of_pos_right bounds.2 (Nat.two_pow_pos shift)
  have canonical : Canonical (whole * 2 ^ shift) (-shift) :=
    ⟨Nat.mul_pos positive (Nat.two_pow_pos shift), below, by omega, Or.inl full⟩
  have value : (whole : ℚ) = ((whole * 2 ^ shift : ℕ) : ℚ) * 2 ^ (-shift : ℤ) := by
    rw [zpow_neg, zpow_natCast]
    push_cast
    field_simp
  have inWord : whole.toUInt64.toNat = whole := Nat.mod_eq_of_lt (by omega)
  have rounded : UnpackedFloat.ofUInt64 binary64 whole.toUInt64 =
      .finite .positive (whole * 2 ^ shift) (-shift) canonical.positive := by
    have unfolded : UnpackedFloat.ofUInt64 binary64 whole.toUInt64 =
        UnpackedFloat.normalize binary64 whole.toUInt64.toNat 0 .positive := rfl
    have sign : compare (whole : ℤ) 0 = .gt := compare_gt_iff_gt.mpr (by omega)
    rw [unfolded, inWord, UnpackedFloat.normalize, sign, ← nearest_self canonical, ← value]
    have exact := round_eq 0 positive
    rwa [zpow_zero, mul_one] at exact
  refine ⟨_, _, ?_, full, value⟩
  have unfolded : whole.toUInt64.toFloat =
      .ofModel (.pack (UnpackedFloat.ofUInt64 binary64 whole.toUInt64)) := rfl
  rw [unfolded, rounded]
  exact hasParts_pack canonical (by omega)

/-- The mantissa and the exponent of a power of ten, if 53 bits are enough. -/
def powerParts (power : ℕ) : ℕ × ℤ :=
  let bits := Nat.log2 (10 ^ power)
  if bits ≤ 52 then (10 ^ power * 2 ^ (52 - bits), -(52 - bits : ℕ))
  else (10 ^ power / 2 ^ (bits - 52), (bits - 52 : ℕ))

theorem toBits_powerOfTen : ∀ power : Fin 23,
    Float.exactlyRepresentablePowersOfTen[power].toBits.toNat =
      ((powerParts power).2 + 1075).toNat * 2 ^ 52 + ((powerParts power).1 - 2 ^ 52) := by
  decide +kernel

theorem powerParts_bounds : ∀ power : Fin 23,
    2 ^ 52 ≤ (powerParts power).1 ∧ (powerParts power).1 < 2 ^ 53 ∧
      -52 ≤ (powerParts power).2 ∧ (powerParts power).2 ≤ 52 ∧
        10 ^ power.val * 2 ^ (-(powerParts power).2).toNat =
          (powerParts power).1 * 2 ^ (powerParts power).2.toNat := by
  decide +kernel

theorem holds_powerOfTen (power : Fin 23) :
    Holds Float.exactlyRepresentablePowersOfTen[power] (10 ^ power.val) := by
  rcases powerParts_bounds power with ⟨full, below, least, bounded, value⟩
  have bits := toBits_powerOfTen power
  have parts := hasParts_of_toBits bits (by omega) (by omega) (by omega)
  have mantissa : 2 ^ 52 + ((powerParts power).1 - 2 ^ 52) = (powerParts power).1 := by omega
  have exponent : (((powerParts power).2 + 1075).toNat : ℤ) - 1075 = (powerParts power).2 := by
    omega
  rw [mantissa, exponent] at parts
  refine ⟨_, _, parts, full, ?_⟩
  have valueCast : (10 : ℚ) ^ power.val * 2 ^ (-(powerParts power).2).toNat =
      (powerParts power).1 * 2 ^ (powerParts power).2.toNat := by exact_mod_cast value
  rw [zpow_eq_div two_ne_zero, mul_div_assoc', ← valueCast,
    mul_div_cancel_right₀ _ (by positivity)]

/-! ## Decimals -/

section

variable {coefficient power : ℕ}

/-- The exact product with a power of ten is rounded once. -/
theorem modelScientific_up (positive : 0 < coefficient) (bounded : power ≤ 2048) :
    UnpackedFloat.ofScientific binary64 coefficient power =
      nearest (coefficient * 10 ^ power) := by
  have tenPositive : 0 < 10 ^ power := Nat.pow_pos (by decide)
  have shiftedPositive : 0 < coefficient <<< 53 := by
    rw [Nat.shiftLeft_eq]
    positivity
  have value : ((coefficient <<< 53 : ℕ) * 2 ^ (-53 : ℤ) * ((10 ^ power : ℕ) * 2 ^ (0 : ℤ)) : ℚ) =
      coefficient * 10 ^ power := by
    rw [Nat.shiftLeft_eq, zpow_zero, mul_one]
    push_cast
    rw [mul_assoc (coefficient : ℚ), zpow_neg]
    norm_num
  have atLeast : (1 : ℚ) ≤ coefficient * 10 ^ power := by
    exact_mod_cast Nat.mul_pos positive tenPositive
  have magnitude : 0 ≤ Int.log 2 (coefficient * 10 ^ power : ℚ) := by
    rwa [← two_zpow_le_iff (zero_lt_one.trans_le atLeast), zpow_zero]
  have product := mul_finite shiftedPositive tenPositive
    (by rw [value, gridExponent]; omega : (-53 : ℤ) + 0 ≤ _)
  rw [value] at product
  rw [← product, UnpackedFloat.ofScientific, dif_neg positive.ne']
  have inRange : ¬ (power : ℤ) > 2 ^ binary64.exponentBits := by
    change ¬ (power : ℤ) > 2048
    omega
  have notTiny : ¬ (power : ℤ) < -(2 ^ binary64.exponentBits + coefficient.log2) := by
    change ¬ (power : ℤ) < -(2048 + coefficient.log2)
    omega
  rw [if_neg inRange, if_neg notTiny, if_pos (Int.natCast_nonneg power)]
  rfl

theorem modelScientific_down (positive : 0 < coefficient)
    (bounded : power ≤ 2048 + coefficient.log2) (some : 0 < power) :
    UnpackedFloat.ofScientific binary64 coefficient (-power) =
      nearest (coefficient / 10 ^ power) := by
  have tenPositive : 0 < 10 ^ power := Nat.pow_pos (by decide)
  have quotient := div_finite 0 0 positive tenPositive
  rw [zpow_zero, mul_one, mul_one, Nat.cast_pow, Nat.cast_ofNat] at quotient
  rw [← quotient, UnpackedFloat.ofScientific, dif_neg positive.ne']
  have inRange : ¬ (-power : ℤ) > 2 ^ binary64.exponentBits := by
    change ¬ (-power : ℤ) > 2048
    omega
  have notTiny : ¬ (-power : ℤ) < -(2 ^ binary64.exponentBits + coefficient.log2) := by
    change ¬ (-power : ℤ) < -(2048 + coefficient.log2)
    omega
  rw [if_neg inRange, if_neg notTiny, if_neg (by omega)]
  simp only [neg_neg, Int.toNat_natCast]

theorem ofScientific_up (positive : 0 < coefficient) (bounded : power ≤ 2048) :
    Float.ofScientific coefficient false power = ofRational (coefficient * 10 ^ power) := by
  unfold Float.ofScientific
  by_cases small : coefficient < 2 ^ 53 ∧ power ≤ 22
  · rw [dif_pos small]
    exact (holds_toUInt64 positive small.1).mul (holds_powerOfTen ⟨power, by omega⟩)
  · rw [dif_neg small, ofRational, ← modelScientific_up positive bounded]
    rfl

theorem ofScientific_down (positive : 0 < coefficient)
    (bounded : power ≤ 2048 + coefficient.log2) (some : 0 < power) :
    Float.ofScientific coefficient true power = ofRational (coefficient / 10 ^ power) := by
  unfold Float.ofScientific
  by_cases small : coefficient < 2 ^ 53 ∧ power ≤ 22
  · rw [dif_pos small]
    exact (holds_toUInt64 positive small.1).div (holds_powerOfTen ⟨power, by omega⟩)
  · rw [dif_neg small, ofRational, ← modelScientific_down positive bounded some]
    obtain ⟨down, rfl⟩ : ∃ down, power = down + 1 := ⟨power - 1, by omega⟩
    rfl

end

/-- Whatever is too large for a double is rounded to infinity. -/
theorem ofRational_of_large {q : ℚ} (large : 2 ^ (1024 : ℤ) ≤ q) : ofRational q = 1.0 / 0.0 := by
  have infinite : (1.0 / 0.0 : Float) = .ofModel (.pack (.infinity .positive)) := rfl
  have positive : 0 < q := lt_of_lt_of_le (by norm_num) large
  rw [two_zpow_le_iff positive] at large
  have grid : gridExponent q = Int.log 2 q - 52 := by
    rw [gridExponent]
    omega
  have atLeast : (2 ^ 52 : ℕ) ≤ q / 2 ^ gridExponent q := by
    rw [grid, le_div_iff₀ (by positivity), Nat.cast_pow, Nat.cast_ofNat, ← zpow_natCast,
      ← zpow_add₀ (by norm_num), two_zpow_le_iff positive]
    omega
  have full := le_nearestEven atLeast
  generalize same : nearestEven (q / 2 ^ gridExponent q) = mantissa at full
  have packed : ∀ {mantissa : ℕ} {exponent : ℤ} (some : 0 < mantissa), 972 ≤ exponent →
      Float.Model.pack (.finite .positive mantissa exponent some) =
        Float.Model.pack (.infinity .positive) := by
    intro mantissa exponent some tooLarge
    have outOfRange : 2 ^ binary64.exponentBits ≤
        (exponent + binary64.exponentBias + binary64.mantissaBitsWithoutImplicit).toNat + 1 := by
      change 2048 ≤ (exponent + 1023 + 52).toNat + 1
      omega
    simp only [Float.Model.pack, UnpackedFloat.pack, if_pos outOfRange]
  have notEmpty : mantissa ≠ 0 := by omega
  rw [infinite, ofRational, nearest, same, onGrid, dif_neg notEmpty]
  split
  · rw [packed _ (by omega)]
  · rw [packed _ (by omega)]

/-- Whatever is below a half of the least double is rounded to zero. -/
theorem ofRational_of_small {q : ℚ} (positive : 0 < q) (small : q < 2 ^ (-1075 : ℤ)) :
    ofRational q = 0 := by
  have zero : (0 : Float) = .ofModel (.pack (.zero .positive)) := rfl
  have grid : gridExponent q = -1074 := by
    rw [lt_two_zpow_iff positive] at small
    rw [gridExponent]
    omega
  have near : |q / 2 ^ (-1074 : ℤ) - (0 : ℕ)| < 1 / 2 := by
    rw [Nat.cast_zero, sub_zero, abs_of_pos (by positivity), div_lt_iff₀ (by positivity)]
    refine small.trans_eq ?_
    rw [show (-1075 : ℤ) = -1 + -1074 from rfl, zpow_add₀ two_ne_zero, zpow_neg_one, one_div]
  rw [ofRational, nearest, grid, nearestEven_eq near, zero]
  rfl

/-! ## Whole numbers -/

theorem Holds.unique (holds : Holds x p) (other : Holds x q) : p = q := by
  rcases holds with ⟨mantissa, exponent, parts, -, rfl⟩
  rcases other with ⟨otherMantissa, otherExponent, otherParts, -, rfl⟩
  have same := parts.unpacked.symm.trans otherParts.unpacked
  rw [UnpackedFloat.finite.injEq] at same
  rw [same.2.1, same.2.2]

theorem Holds.isFinite (holds : Holds x q) : x.isFinite = true := by
  rcases holds with ⟨mantissa, exponent, parts, -, -⟩
  change x.toModel.unpack.isFinite = true
  rw [parts.unpacked]
  rfl

theorem Holds.ne_zero (holds : Holds x q) : x ≠ 0 := by
  rintro rfl
  rcases holds with ⟨mantissa, exponent, parts, -, -⟩
  rcases (beq_zero_iff 0).mp (beq_self rfl) with ⟨sign, unpacked⟩
  exact nomatch unpacked.symm.trans parts.unpacked

section

variable {whole other : ℕ}

/-- The literal of a whole number of at most 53 bits is that number. -/
theorem holds_ofNat (positive : 0 < whole) (small : whole < 2 ^ 53) :
    Holds (Float.ofNat whole) whole := by
  have holds := holds_toUInt64 positive small
  have rounded : Float.ofNat whole = whole.toUInt64.toFloat := by
    have decimal : Float.ofNat whole = Float.ofScientific whole false 0 := rfl
    rcases holds with ⟨mantissa, exponent, parts, -, value⟩
    rw [decimal, ofScientific_up positive (by decide), pow_zero, mul_one]
    refine parts.ofRational_eq (Nat.cast_pos.mpr positive) ?_
    rw [value, mul_div_cancel_right₀ _ (by positivity), sub_self, abs_zero]
    norm_num
  rw [rounded]
  exact holds

theorem isFinite_ofNat (small : whole < 2 ^ 53) : (Float.ofNat whole).isFinite = true := by
  rcases Nat.eq_zero_or_pos whole with rfl | positive
  · rfl
  · exact (holds_ofNat positive small).isFinite

theorem orZero_ofNat (small : whole < 2 ^ 53) : orZero (Float.ofNat whole) = Float.ofNat whole :=
  if_pos (isFinite_ofNat small)

/-- Whole numbers of at most 53 bits are told apart. -/
theorem ofNat_inj (small : whole < 2 ^ 53) (smallOther : other < 2 ^ 53) :
    Float.ofNat whole = Float.ofNat other ↔ whole = other := by
  refine ⟨fun same => ?_, congrArg _⟩
  rcases Nat.eq_zero_or_pos whole with rfl | positive
  · by_contra different
    exact (holds_ofNat (Nat.pos_of_ne_zero (Ne.symm different)) smallOther).ne_zero same.symm
  rcases Nat.eq_zero_or_pos other with rfl | positiveOther
  · exact absurd same (holds_ofNat positive small).ne_zero
  have values := (holds_ofNat positive small).unique (same ▸ holds_ofNat positiveOther smallOther)
  exact_mod_cast values

end

namespace Decimal

/-- The number that a decimal stands for. -/
def value (d : Decimal) : ℚ :=
  d.coefficient * 10 ^ d.exponent

/-- A decimal denotes the nearest double. -/
theorem toFloat_eq {d : Decimal} (positive : 0 < d.coefficient) :
    d.toFloat = ofRational d.value := by
  rcases d with ⟨coefficient, exponent⟩
  dsimp only at positive
  have atLeast : (1 : ℚ) ≤ coefficient := by exact_mod_cast positive
  have farAway : (2 : ℚ) ^ (1075 : ℤ) < 10 ^ (400 : ℤ) := by
    have fifths : (2 : ℚ) ^ 215 < 10 ^ 80 := by norm_num
    calc (2 : ℚ) ^ (1075 : ℤ) = (2 ^ 215) ^ 5 := by rw [← pow_mul]; rfl
      _ < (10 ^ 80) ^ 5 := pow_lt_pow_left₀ fifths (by positivity) (by decide)
      _ = 10 ^ (400 : ℤ) := by rw [← pow_mul]; rfl
  rw [toFloat, value]
  dsimp only
  rw [if_neg positive.ne']
  by_cases large : 400 < exponent
  · rw [if_pos large, ofRational_of_large]
    calc (2 : ℚ) ^ (1024 : ℤ) ≤ 2 ^ (1075 : ℤ) := zpow_le_zpow_right₀ (by norm_num) (by decide)
      _ ≤ 10 ^ (400 : ℤ) := farAway.le
      _ ≤ 10 ^ exponent := zpow_le_zpow_right₀ (by norm_num) large.le
      _ ≤ coefficient * 10 ^ exponent := le_mul_of_one_le_left (by positivity) atLeast
  by_cases small : exponent + coefficient.log2 < -400
  · rw [if_neg large, if_pos small, ofRational_of_small (by positivity)]
    have below : (coefficient : ℚ) ≤ 10 ^ (coefficient.log2 + 1 : ℤ) := by
      have bits := (Nat.lt_log2_self (n := coefficient)).le
      have tens : coefficient ≤ 10 ^ (coefficient.log2 + 1) :=
        bits.trans (Nat.pow_le_pow_left (by decide) _)
      exact_mod_cast tens
    calc (coefficient * 10 ^ exponent : ℚ)
        ≤ 10 ^ (coefficient.log2 + 1 : ℤ) * 10 ^ exponent := by gcongr
      _ = 10 ^ (coefficient.log2 + 1 + exponent) := (zpow_add₀ (by norm_num) _ _).symm
      _ ≤ 10 ^ (-400 : ℤ) := zpow_le_zpow_right₀ (by norm_num) (by omega)
      _ < 2 ^ (-1075 : ℤ) := by
        rw [zpow_neg, zpow_neg]
        exact inv_strictAnti₀ (by positivity) farAway
  rw [if_neg large, if_neg small]
  cases exponent with
  | ofNat up =>
    dsimp only
    rw [ofScientific_up positive (by simp at large; omega)]
    simp
  | negSucc down =>
    dsimp only
    rw [ofScientific_down positive (by omega) (Nat.succ_pos down), zpow_negSucc, div_eq_mul_inv]

end Decimal

end Numeric
end CharacterSheet
