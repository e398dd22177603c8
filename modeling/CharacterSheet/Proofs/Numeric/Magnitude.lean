import CharacterSheet.Proofs.Numeric.Packing

/-!
# Signs and magnitudes

A finite double is a zero or has canonical parts, and the bit for its sign says
which of both it has.  Giving the magnitude that sign leads back to the number.
-/

namespace CharacterSheet
namespace Numeric

open Float.Model (UnpackedFloat)
open Float.Model.Format (binary64)
open Float.Model.UnpackedFloat

variable {x : Float}

/-- A finite double is a zero or has canonical parts. -/
theorem exists_parts (finite : x.isFinite = true) :
    (∃ sign, x.toModel.unpack = .zero sign) ∨
      ∃ sign mantissa exponent, ∃ canonical : Canonical mantissa exponent, exponent ≤ 971 ∧
        x.toModel.unpack = .finite sign mantissa exponent canonical.positive := by
  have unfolded : x.isFinite = x.toModel.unpack.isFinite := rfl
  rw [unfolded] at finite
  cases unpacked : x.toModel.unpack with
  | notANumber =>
    rw [unpacked] at finite
    cases finite
  | infinity sign =>
    rw [unpacked] at finite
    cases finite
  | zero sign => exact Or.inl ⟨sign, rfl⟩
  | finite sign mantissa exponent positive =>
    rcases canonical_of_unpack unpacked with ⟨canonical, bounded⟩
    exact Or.inr ⟨sign, mantissa, exponent, canonical, bounded, rfl⟩

theorem isNaN_of_isFinite (finite : x.isFinite = true) : x.isNaN = false := by
  have unfolded : x.isNaN = x.toModel.unpack.isNaN := rfl
  rw [unfolded]
  rcases exists_parts finite with ⟨_, unpacked⟩ | ⟨_, _, _, _, _, unpacked⟩ <;>
  · rw [unpacked]
    rfl

/-- The bit for the sign is that of the unpacked number. -/
theorem isNegative_iff (defined : x.isNaN = false) :
    isNegative x = true ↔ (fields x.toModel.unpack).1 = .negative := by
  set bits : BitVec binary64.numBits := x.toModel.toBits.toBitVec with bits_eq
  have split := fields_unpack bits defined
  have sign : (fields x.toModel.unpack).1.toBitVec = unpackSign bits :=
    (congrArg (fun parts => parts.1.toBitVec) split).trans (Sign.toBitVec_ofBitVec _)
  have negative (sign : Sign) : sign = .negative ↔ sign.toBitVec.toNat = 1 := by
    cases sign <;> simp [Sign.toBitVec]
  have first : isNegative x = true ↔ 2 ^ 63 ≤ bits.toNat := decide_eq_true_iff
  have bound : bits.toNat < 2 ^ 64 := bits.isLt
  rw [negative, sign, first, toNat_unpackSign]
  omega

theorem abs_eq (x : Float) : x.abs = .ofModel (.pack x.toModel.unpack.abs) := rfl

theorem neg_eq (x : Float) : -x = .ofModel (.pack x.toModel.unpack.neg) := rfl

/-- A finite number is its magnitude with its sign. -/
theorem withSign_abs (finite : x.isFinite = true) : withSign (isNegative x) x.abs = x := by
  have defined := isNaN_of_isFinite finite
  have negative := isNegative_iff defined
  rcases exists_parts finite with
    ⟨sign, unpacked⟩ | ⟨sign, mantissa, exponent, canonical, bounded, unpacked⟩
  · rw [unpacked] at negative
    have magnitude : x.abs = .ofModel (.pack (.zero .positive)) := by
      rw [abs_eq, unpacked]
      rfl
    symm
    apply eq_of_unpack_eq _ defined
    rw [unpacked, magnitude]
    cases sign with
    | positive =>
      have unsigned : isNegative x = false := Bool.eq_false_iff.mpr fun is => nomatch negative.mp is
      rw [unsigned]
      rfl
    | negative =>
      rw [negative.mpr rfl]
      rfl
  · have same : (fields x.toModel.unpack).1 = sign := by
      rw [unpacked, fields]
      split <;> rfl
    rw [same] at negative
    have magnitude : x.abs = .ofModel (.pack (.finite .positive mantissa exponent canonical.positive)) := by
      rw [abs_eq, unpacked]
      rfl
    symm
    apply eq_of_unpack_eq _ defined
    rw [unpacked, magnitude]
    cases sign with
    | positive =>
      have unsigned : isNegative x = false := Bool.eq_false_iff.mpr fun is => nomatch negative.mp is
      rw [unsigned]
      exact (unpack_pack canonical bounded).symm
    | negative =>
      rw [negative.mpr rfl, withSign, if_pos rfl, neg_eq]
      change _ = (Float.Model.pack (Float.Model.pack _).unpack.neg).unpack
      rw [unpack_pack canonical bounded]
      exact (unpack_pack canonical bounded).symm

theorem abs_zero_or_hasParts (finite : x.isFinite = true) :
    x.abs = 0 ∨ ∃ mantissa exponent, HasParts x.abs mantissa exponent := by
  rcases exists_parts finite with
    ⟨sign, unpacked⟩ | ⟨sign, mantissa, exponent, canonical, bounded, unpacked⟩
  · left
    have zero : (0 : Float) = .ofModel (.pack (.zero .positive)) := rfl
    rw [abs_eq, unpacked, zero]
    rfl
  · right
    refine ⟨mantissa, exponent, ?_⟩
    rw [abs_eq, unpacked]
    exact hasParts_pack canonical bounded

theorem beq_zero_of_pos (finite : x.isFinite = true) (positive : 0 < x) : (x == 0) = false := by
  rw [lt_iff_rank rfl (isNaN_of_isFinite finite)] at positive
  rw [← Bool.not_eq_true, beq_iff_rank (isNaN_of_isFinite finite) rfl]
  exact positive.ne'

/-- Adding to zero keeps every finite number but a negative zero. -/
theorem zero_add_of_isFinite (finite : x.isFinite = true) (nonzero : (x == 0) = false) :
    0 + x = x := by
  rcases exists_parts finite with
    ⟨sign, unpacked⟩ | ⟨sign, mantissa, exponent, canonical, bounded, unpacked⟩
  · rw [(beq_zero_iff x).mpr ⟨sign, unpacked⟩] at nonzero
    cases nonzero
  · have total : (0 + x).toModel =
        .pack (UnpackedFloat.add .binary64 (.zero .positive) x.toModel.unpack) := rfl
    have same : x.toModel.unpack = (0 + x).toModel.unpack := by
      rw [total, unpacked]
      exact (unpack_pack canonical bounded).symm
    exact (eq_of_unpack_eq same (isNaN_of_isFinite finite)).symm

end Numeric
end CharacterSheet
