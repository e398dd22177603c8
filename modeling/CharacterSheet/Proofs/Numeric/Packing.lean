import CharacterSheet.Proofs.Numeric.Nearest
import CharacterSheet.Proofs.Numeric.Zero

/-!
# Positive doubles and their parts

A positive finite double has a mantissa and an exponent, which determine it.
They are canonical: the mantissa has all its bits unless the exponent is the
least.  `ofRational` is the double nearest to a positive number, infinity
included, and a double is the nearest to all numbers less than a quarter of a
unit away from it.
-/

namespace CharacterSheet
namespace Numeric

open Float.Model (UnpackedFloat totalExponent)
open Float.Model.Format (binary64)
open Float.Model.UnpackedFloat

variable {mantissa : ℕ} {exponent : ℤ} {sign : Sign}

/-- Packing loses nothing of a canonical number that is not too large. -/
theorem unpack_pack (canonical : Canonical mantissa exponent) (bounded : exponent ≤ 971) :
    (Float.Model.pack (.finite sign mantissa exponent canonical.positive)).unpack =
      .finite sign mantissa exponent canonical.positive := by
  have least := canonical.least
  have small := canonical.small
  have positive := canonical.positive
  have bias : (binary64.exponentBias : ℤ) = 1023 := rfl
  have inRange : ¬ 2 ^ binary64.exponentBits ≤
      (exponent + binary64.exponentBias + binary64.mantissaBitsWithoutImplicit).toNat + 1 := by
    change ¬ 2048 ≤ (exponent + 1023 + 52).toNat + 1
    omega
  unfold Float.Model.unpack Float.Model.pack
  simp only [UnpackedFloat.pack, if_neg inRange]
  by_cases full : 2 ^ 52 ≤ mantissa
  · have bits : mantissa.log2 + 1 = binary64.mantissaBits := by
      rw [(Nat.log2_eq_iff canonical.positive.ne').mpr ⟨full, small⟩]
      rfl
    obtain ⟨field, biased⟩ : ∃ field : ℕ, exponent + 1075 = field :=
      Int.eq_ofNat_of_zero_le (by omega)
    have toNat : (exponent + binary64.exponentBias + (52 : ℕ)).toNat = field := by
      rw [bias]
      omega
    have fieldValue : (BitVec.ofNat 11 field).toNat = field := by
      rw [BitVec.toNat_ofNat]
      omega
    have ordinary : BitVec.ofNat 11 field ≠ -1#11 ∧ BitVec.ofNat 11 field ≠ 0#11 := by
      constructor <;> intro same <;> have := congrArg BitVec.toNat same <;>
        rw [fieldValue] at this <;> simp at this <;> omega
    have implicit : (1#1 ++ BitVec.ofNat 52 mantissa).toNat = mantissa := by
      rw [toNat_implicit, BitVec.toNat_ofNat]
      change 2 ^ 52 + mantissa % 2 ^ 52 = mantissa
      omega
    rw [if_pos bits]
    simp only [UnpackedFloat.unpack, unpackExponent_packComponents, unpackMantissa_packComponents,
      toNat, ordinary, if_false, unpackSign_packComponents, Sign.ofBitVec_toBitVec, fieldValue, implicit]
    congr 1
    rw [bias]
    omega
  · obtain rfl := canonical.full.resolve_left full
    have bits : mantissa.log2 + 1 ≠ binary64.mantissaBits := by
      have fewer : mantissa.log2 < 52 := (Nat.log2_lt positive.ne').mpr (Nat.not_le.mp full)
      change mantissa.log2 + 1 ≠ 53
      omega
    have value : (BitVec.ofNat 52 mantissa).toNat = mantissa := by
      rw [BitVec.toNat_ofNat]
      omega
    have some : BitVec.ofNat 52 mantissa ≠ 0#52 := by
      intro none
      have := congrArg BitVec.toNat none
      rw [value] at this
      simp at this
      omega
    rw [if_neg bits]
    simp only [UnpackedFloat.unpack, unpackExponent_packComponents, unpackMantissa_packComponents,
      some, unpackSign_packComponents, Sign.ofBitVec_toBitVec, value]
    rfl

theorem toNat_unpackExponent (bits : BitVec binary64.numBits) :
    (unpackExponent bits).toNat = bits.toNat / 2 ^ 52 % 2048 := by
  rw [← Nat.shiftRight_eq_div_pow]
  rfl

theorem toNat_unpackMantissa (bits : BitVec binary64.numBits) :
    (unpackMantissa bits).toNat = bits.toNat % 2 ^ 52 := rfl

theorem toNat_unpackSign (bits : BitVec binary64.numBits) :
    (unpackSign bits).toNat = bits.toNat / 2 ^ 63 % 2 := by
  rw [← Nat.shiftRight_eq_div_pow]
  rfl

/-- The parts of a finite number are read off its bits. -/
theorem parts_of_unpack {bits : BitVec binary64.numBits} {positive : 0 < mantissa}
    (unpacked : UnpackedFloat.unpack binary64 bits = .finite sign mantissa exponent positive) :
    (bits.toNat / 2 ^ 52 % 2048 = 0 ∧ mantissa = bits.toNat % 2 ^ 52 ∧ exponent = -1074) ∨
      (bits.toNat / 2 ^ 52 % 2048 ≠ 0 ∧ bits.toNat / 2 ^ 52 % 2048 ≠ 2047 ∧
        mantissa = 2 ^ 52 + bits.toNat % 2 ^ 52 ∧
          exponent = (bits.toNat / 2 ^ 52 % 2048 : ℕ) - 1075) := by
  rw [← toNat_unpackExponent, ← toNat_unpackMantissa]
  unfold UnpackedFloat.unpack at unpacked
  dsimp only at unpacked
  split at unpacked
  · split at unpacked <;> cases unpacked
  · rename_i finite
    split at unpacked
    · rename_i small
      split at unpacked
      · cases unpacked
      · cases unpacked
        refine Or.inl ⟨congrArg BitVec.toNat small, rfl, ?_⟩
        rw [small]
        rfl
    · rename_i large
      cases unpacked
      refine Or.inr ⟨fun none => large (BitVec.eq_of_toNat_eq none),
        fun all => finite (BitVec.eq_of_toNat_eq all), toNat_implicit _, ?_⟩
      change _ - (1023 + 52 : ℤ) = _
      omega

theorem canonical_of_unpack {x : Float} {positive : 0 < mantissa}
    (unpacked : x.toModel.unpack = .finite sign mantissa exponent positive) :
    Canonical mantissa exponent ∧ exponent ≤ 971 := by
  have field := Nat.mod_lt (x.toModel.toBits.toBitVec.toNat / 2 ^ 52) (show 0 < 2048 by decide)
  have fraction := Nat.mod_lt x.toModel.toBits.toBitVec.toNat (show 0 < 2 ^ 52 by decide)
  rcases parts_of_unpack unpacked with ⟨small, rfl, rfl⟩ | ⟨large, finite, rfl, rfl⟩
  · exact ⟨⟨positive, by omega, by omega, Or.inr rfl⟩, by omega⟩
  · exact ⟨⟨positive, by omega, by omega, Or.inl (by omega)⟩, by omega⟩

theorem ofFloat_eq {x : Float} {positive : 0 < mantissa}
    (unpacked : x.toModel.unpack = .finite sign mantissa exponent positive) :
    Dyadic.ofFloat x = ⟨mantissa, exponent⟩ := by
  have bits : x.toBits.toNat = x.toModel.toBits.toBitVec.toNat := rfl
  rw [Dyadic.ofFloat, bits]
  rcases parts_of_unpack unpacked with ⟨small, rfl, rfl⟩ | ⟨large, -, rfl, rfl⟩
  · exact if_pos small
  · exact if_neg large

/-- The mantissa and the exponent of a positive double. -/
structure HasParts (x : Float) (mantissa : ℕ) (exponent : ℤ) : Prop where
  canonical : Canonical mantissa exponent
  bounded : exponent ≤ 971
  unpacked : x.toModel.unpack = .finite .positive mantissa exponent canonical.positive

/-- The parts of a number are the fields of its bits, if its exponent is not
the least. -/
theorem hasParts_of_toBits {x : Float} {field fraction : ℕ}
    (split : x.toBits.toNat = field * 2 ^ 52 + fraction) (some : 0 < field) (finite : field < 2047)
    (small : fraction < 2 ^ 52) : HasParts x (2 ^ 52 + fraction) (field - 1075) := by
  set bits : BitVec binary64.numBits := x.toModel.toBits.toBitVec with bits_eq
  change bits.toNat = _ at split
  have exponent : (unpackExponent bits).toNat = field := by
    rw [toNat_unpackExponent, split]
    omega
  have mantissa : (1#1 ++ unpackMantissa bits).toNat = 2 ^ 52 + fraction := by
    rw [toNat_implicit, toNat_unpackMantissa, split]
    change 2 ^ 52 + _ = _
    omega
  have sign : unpackSign bits = 0#1 := by
    apply BitVec.eq_of_toNat_eq
    rw [toNat_unpackSign, split]
    simp
    omega
  have ordinary : unpackExponent bits ≠ -1#_ ∧ unpackExponent bits ≠ 0#_ := by
    constructor <;> intro same <;> have fieldValue := exponent.symm.trans (congrArg BitVec.toNat same)
    · change field = 2047 at fieldValue
      omega
    · change field = 0 at fieldValue
      omega
  refine ⟨⟨by omega, by omega, by omega, Or.inl (by omega)⟩, by omega, ?_⟩
  change UnpackedFloat.unpack binary64 bits = _
  simp only [UnpackedFloat.unpack, ordinary, if_false, sign, exponent, mantissa]
  congr 1

/-- The double nearest to a positive number. -/
def ofRational (q : ℚ) : Float :=
  .ofModel (.pack (nearest q))

theorem hasParts_pack (canonical : Canonical mantissa exponent) (bounded : exponent ≤ 971) :
    HasParts (.ofModel (.pack (.finite .positive mantissa exponent canonical.positive)))
      mantissa exponent :=
  ⟨canonical, bounded, unpack_pack canonical bounded⟩

theorem HasParts.eq_pack {x : Float} (parts : HasParts x mantissa exponent) :
    x = .ofModel (.pack (.finite .positive mantissa exponent parts.canonical.positive)) := by
  refine eq_of_unpack_eq (parts.unpacked.trans (unpack_pack parts.canonical parts.bounded).symm) ?_
  change x.toModel.unpack.isNaN = false
  rw [parts.unpacked]
  rfl

/-- A double is the nearest to all numbers less than a quarter of a unit away
from it. -/
theorem HasParts.ofRational_eq {x : Float} (parts : HasParts x mantissa exponent) {q : ℚ}
    (positive : 0 < q) (close : |q / 2 ^ exponent - mantissa| < 1 / 4) : ofRational q = x := by
  rw [ofRational, nearest_eq parts.canonical positive close, ← parts.eq_pack]

end Numeric
end CharacterSheet
