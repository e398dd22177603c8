import CharacterSheet.Proofs.Numeric.Comparison

/-!
# The sign of zero

There are two zeros, which compare as equal.  `unsigned` takes both for one,
and then comparing as equal is being equal, up to undefined numbers.  This
rests on a double being determined by its unpacked form.
-/

namespace CharacterSheet
namespace Numeric

open Float.Model (UnpackedFloat)
open Float.Model.Format (binary64)
open Float.Model.UnpackedFloat (unpackSign unpackExponent unpackMantissa)

/-! ## Doubles and their unpacked form -/

/-- The bits of a double are its sign, its exponent and its mantissa. -/
theorem eq_of_components {first second : BitVec binary64.numBits}
    (sign : unpackSign first = unpackSign second)
    (exponent : unpackExponent first = unpackExponent second)
    (mantissa : unpackMantissa first = unpackMantissa second) : first = second := by
  have signs : first.toNat / 2 ^ 63 % 2 = second.toNat / 2 ^ 63 % 2 := by
    rw [← Nat.shiftRight_eq_div_pow, ← Nat.shiftRight_eq_div_pow]
    exact congrArg BitVec.toNat sign
  have exponents : first.toNat / 2 ^ 52 % 2 ^ 11 = second.toNat / 2 ^ 52 % 2 ^ 11 := by
    rw [← Nat.shiftRight_eq_div_pow, ← Nat.shiftRight_eq_div_pow]
    exact congrArg BitVec.toNat exponent
  have mantissas : first.toNat % 2 ^ 52 = second.toNat % 2 ^ 52 :=
    congrArg BitVec.toNat mantissa
  have firstBound : first.toNat < 2 ^ 64 := first.isLt
  have secondBound : second.toNat < 2 ^ 64 := second.isLt
  apply BitVec.eq_of_toNat_eq
  omega

theorem toNat_implicit (mantissa : BitVec 52) :
    (1#1 ++ mantissa).toNat = powerOfTwo 52 + mantissa.toNat := by
  rw [BitVec.toNat_append, ← Nat.shiftLeft_add_eq_or_of_lt mantissa.isLt]
  rfl

/-- The sign, the exponent field and the mantissa field of a number. -/
def fields : UnpackedFloat → UnpackedFloat.Sign × Nat × Nat
  | .notANumber => (.positive, 2047, powerOfTwo 51)
  | .infinity sign => (sign, 2047, 0)
  | .zero sign => (sign, 0, 0)
  | .finite sign mantissa exponent _ =>
    if mantissa < powerOfTwo 52 then (sign, 0, mantissa)
    else (sign, (exponent + 1075).toNat, mantissa - powerOfTwo 52)

/-- Unpacking loses nothing of a number that is defined. -/
theorem fields_unpack (bits : BitVec binary64.numBits)
    (defined : (UnpackedFloat.unpack binary64 bits).isNaN = false) :
    fields (UnpackedFloat.unpack binary64 bits) =
      (.ofBitVec (unpackSign bits), (unpackExponent bits).toNat, (unpackMantissa bits).toNat) := by
  unfold UnpackedFloat.unpack at defined ⊢
  dsimp only at defined ⊢
  by_cases special : unpackExponent bits = -1#_
  · rw [if_pos special] at defined ⊢
    by_cases empty : unpackMantissa bits = 0#_
    · rw [if_pos empty, special, empty]
      rfl
    · rw [if_neg empty] at defined
      exact absurd defined (by decide)
  · rw [if_neg special]
    by_cases small : unpackExponent bits = 0#_
    · rw [if_pos small]
      by_cases empty : unpackMantissa bits = 0#_
      · rw [dif_pos empty, small, empty]
        rfl
      · have below : (unpackMantissa bits).toNat < powerOfTwo 52 := (unpackMantissa bits).isLt
        rw [dif_neg empty, small]
        exact if_pos below
    · have large : ¬ (1#1 ++ unpackMantissa bits).toNat < powerOfTwo 52 := by
        rw [toNat_implicit]
        omega
      rw [if_neg small]
      refine (if_neg large).trans ?_
      rw [toNat_implicit, Nat.add_sub_cancel_left]
      congr
      change ((unpackExponent bits).toNat - (1023 + 52 : Int) + 1075).toNat = _
      omega

theorem eq_of_unpack_eq {x y : Float} (same : x.toModel.unpack = y.toModel.unpack)
    (defined : x.isNaN = false) : x = y := by
  have written : ∀ sign : BitVec 1, (UnpackedFloat.Sign.ofBitVec sign).toBitVec = sign := by
    decide
  have definedRight : y.isNaN = false := by
    change y.toModel.unpack.isNaN = false
    rw [← same]
    exact defined
  have left := fields_unpack x.toModel.toBits.toBitVec defined
  have right := fields_unpack y.toModel.toBits.toBitVec definedRight
  have parts := left.symm.trans ((congrArg fields same).trans right)
  simp only [Prod.mk.injEq] at parts
  have sign := congrArg UnpackedFloat.Sign.toBitVec parts.1
  rw [written, written] at sign
  have bits := eq_of_components sign (BitVec.eq_of_toNat_eq parts.2.1)
    (BitVec.eq_of_toNat_eq parts.2.2)
  rcases x with ⟨⟨⟨_⟩, _⟩⟩
  rcases y with ⟨⟨⟨_⟩, _⟩⟩
  cases bits
  rfl

/-! ## Taking both zeros for one -/

/-- The same number, but no negative zero. -/
def unsigned (x : Float) : Float :=
  if x == 0 then 0 else x

/-- Numbers that compare as equal have one form unless they are zeros. -/
theorem eq_or_zero_of_compare {x y : UnpackedFloat} (same : x.compare y = some .eq) :
    (x = y ∧ x.isNaN = false) ∨
      ((∃ sign, x = .zero sign) ∧ ∃ sign, y = .zero sign) := by
  rcases x with ⟨_ | _⟩ | _ | ⟨sign⟩ | ⟨_ | _, mantissa, exponent, _⟩ <;>
    rcases y with ⟨_ | _⟩ | _ | ⟨sign'⟩ | ⟨_ | _, mantissa', exponent', _⟩ <;>
    first
    | exact Or.inl ⟨rfl, rfl⟩
    | exact Or.inr ⟨⟨_, rfl⟩, _, rfl⟩
    | cases same
    | skip
  -- What is left are finite numbers of one sign.
  case finite.negative.finite.negative =>
    have parts := Ordering.then_eq_eq.mp (Ordering.swap_eq_eq.mp (Option.some.inj same))
    rcases parts.imp compare_eq_iff_eq.mp compare_eq_iff_eq.mp with ⟨rfl, rfl⟩
    exact Or.inl ⟨rfl, rfl⟩
  case finite.positive.finite.positive =>
    have parts := Ordering.then_eq_eq.mp (Option.some.inj same)
    rcases parts.imp compare_eq_iff_eq.mp compare_eq_iff_eq.mp with ⟨rfl, rfl⟩
    exact Or.inl ⟨rfl, rfl⟩

theorem beq_zero_iff (x : Float) : (x == 0) = true ↔ ∃ sign, x.toModel.unpack = .zero sign := by
  have unfolded : (x == 0) = (x.toModel.unpack.compare (.zero .positive) == some .eq) := rfl
  rw [unfolded]
  constructor
  · intro same
    rcases eq_or_zero_of_compare (eq_of_beq same) with ⟨equal, -⟩ | ⟨zero, -⟩
    · exact ⟨_, equal⟩
    · exact zero
  · rintro ⟨sign, same⟩
    rw [same]
    rfl

theorem unsigned_eq_of_beq {x y : Float} (same : (x == y) = true) : unsigned x = unsigned y := by
  have compared : x.toModel.unpack.compare y.toModel.unpack = some .eq := eq_of_beq same
  rcases eq_or_zero_of_compare compared with ⟨equal, defined⟩ | ⟨left, right⟩
  · rw [eq_of_unpack_eq equal defined]
  · rw [unsigned, unsigned, if_pos ((beq_zero_iff x).mpr left),
      if_pos ((beq_zero_iff y).mpr right)]

theorem beq_self {x : Float} (defined : x.isNaN = false) : (x == x) = true :=
  (beq_iff_rank defined defined).mpr rfl

/-- What is equal to something is defined. -/
theorem isNaN_of_beq {x y : Float} (same : (x == y) = true) :
    x.isNaN = false ∧ y.isNaN = false := by
  have compared : x.toModel.unpack.compare y.toModel.unpack = some .eq := eq_of_beq same
  change x.toModel.unpack.isNaN = false ∧ y.toModel.unpack.isNaN = false
  rcases eq_or_zero_of_compare compared with ⟨equal, defined⟩ | ⟨⟨_, left⟩, _, right⟩
  · exact ⟨defined, equal ▸ defined⟩
  · rw [left, right]
    exact ⟨rfl, rfl⟩

theorem isNaN_of_beq_zero {x : Float} (zero : (x == 0) = true) : x.isNaN = false :=
  (isNaN_of_beq zero).1

/-- Equal numbers compare in the same way. -/
theorem beq_congr {x y first second : Float} (left : (x == first) = true)
    (right : (y == second) = true) : (x == y) = (first == second) := by
  rcases isNaN_of_beq left with ⟨definedX, definedFirst⟩
  rcases isNaN_of_beq right with ⟨definedY, definedSecond⟩
  rw [Bool.eq_iff_iff, beq_iff_rank definedX definedY, beq_iff_rank definedFirst definedSecond,
    (beq_iff_rank definedX definedFirst).mp left, (beq_iff_rank definedY definedSecond).mp right]

/-- Numbers that are equal but for the sign of zero are equal, or both are
zero. -/
theorem unsigned_eq_iff {x y : Float} :
    unsigned x = unsigned y ↔ x = y ∨ ((x == 0) = true ∧ (y == 0) = true) := by
  have positive : ((0 : Float) == 0) = true := beq_self rfl
  unfold unsigned
  constructor
  · intro same
    by_cases left : (x == 0) = true <;> by_cases right : (y == 0) = true
    · exact Or.inr ⟨left, right⟩
    · rw [if_pos left, if_neg right] at same
      rw [← same] at right
      exact absurd positive right
    · rw [if_neg left, if_pos right] at same
      rw [same] at left
      exact absurd positive left
    · rw [if_neg left, if_neg right] at same
      exact Or.inl same
  · rintro (same | ⟨left, right⟩)
    · rw [same]
    · rw [if_pos left, if_pos right]

theorem beq_of_unsigned_eq {x y : Float} (same : unsigned x = unsigned y)
    (defined : y.isNaN = false) : (x == y) = true := by
  rcases unsigned_eq_iff.mp same with equal | ⟨left, right⟩
  · rw [equal]
    exact beq_self defined
  · have definedLeft := isNaN_of_beq_zero left
    rw [beq_iff_rank definedLeft defined]
    rw [beq_iff_rank definedLeft rfl] at left
    rw [beq_iff_rank defined rfl] at right
    exact left.trans right.symm

theorem isNaN_orZero (x : Float) : (orZero x).isNaN = false := by
  have finite : ∀ unpacked : UnpackedFloat, unpacked.isFinite = true → unpacked.isNaN = false := by
    intro unpacked
    cases unpacked <;> exact fun isFinite => by first | rfl | cases isFinite
  unfold orZero
  split
  · rename_i isFinite
    exact finite _ isFinite
  · rfl

theorem unsigned_orZero {x y : Float} (same : unsigned x = unsigned y) :
    unsigned (orZero x) = unsigned (orZero y) := by
  have finite : ∀ {zero : Float}, (zero == 0) = true → orZero zero = zero := by
    intro zero isZero
    rcases (beq_zero_iff zero).mp isZero with ⟨sign, unpacked⟩
    have isFinite : zero.isFinite = true := by
      change zero.toModel.unpack.isFinite = true
      rw [unpacked]
      rfl
    exact if_pos isFinite
  rcases unsigned_eq_iff.mp same with rfl | ⟨left, right⟩
  · rfl
  · rw [finite left, finite right, same]

theorem unsigned_pack_zero (sign : UnpackedFloat.Sign) :
    unsigned ⟨Float.Model.pack (.zero sign)⟩ = 0 := by
  cases sign <;> rfl

/-- Zero times a number is zero or undefined, whatever its sign. -/
theorem unsigned_mul {x y : Float} (factor : Float) (same : unsigned x = unsigned y) :
    unsigned (x * factor) = unsigned (y * factor) := by
  rcases unsigned_eq_iff.mp same with rfl | ⟨left, right⟩
  · rfl
  rcases (beq_zero_iff x).mp left with ⟨signLeft, unpackedLeft⟩
  rcases (beq_zero_iff y).mp right with ⟨signRight, unpackedRight⟩
  have product : ∀ {zero : Float} {sign : UnpackedFloat.Sign},
      zero.toModel.unpack = .zero sign → zero * factor =
        ⟨Float.Model.pack (UnpackedFloat.mul binary64 (.zero sign) factor.toModel.unpack)⟩ := by
    intro zero sign unpacked
    rw [← unpacked]
    rfl
  rw [product unpackedLeft, product unpackedRight]
  rcases factor.toModel.unpack with _ | _ | sign | ⟨sign, _, _, _⟩
  · rfl
  · rfl
  · exact (unsigned_pack_zero (signLeft * sign)).trans (unsigned_pack_zero (signRight * sign)).symm
  · exact (unsigned_pack_zero (signLeft * sign)).trans (unsigned_pack_zero (signRight * sign)).symm

theorem unsigned_minimum {x y : Float} (limit : Float) (same : unsigned x = unsigned y) :
    unsigned (minimum x limit) = unsigned (minimum y limit) := by
  rcases unsigned_eq_iff.mp same with rfl | ⟨left, right⟩
  · rfl
  rcases (beq_zero_iff x).mp left with ⟨signLeft, unpackedLeft⟩
  rcases (beq_zero_iff y).mp right with ⟨signRight, unpackedRight⟩
  have sameOrder : limit < x ↔ limit < y := by
    have compared : ∀ {zero : Float} {sign : UnpackedFloat.Sign},
        zero.toModel.unpack = .zero sign →
          (limit < zero ↔
            (limit.toModel.unpack.compare (.zero .positive) == some .lt) = true) := by
      intro zero sign unpacked
      have unfolded : limit < zero ↔
          (limit.toModel.unpack.compare zero.toModel.unpack == some .lt) = true :=
        decide_eq_true_iff
      rw [unfolded, unpacked]
      rcases limit.toModel.unpack with ⟨_ | _⟩ | _ | _ | ⟨_ | _, _, _, _⟩ <;> rfl
    rw [compared unpackedLeft, compared unpackedRight]
  rw [minimum, minimum, isNaN_of_beq_zero left, isNaN_of_beq_zero right,
    if_neg Bool.false_ne_true, if_neg Bool.false_ne_true]
  by_cases below : limit < x
  · rw [if_pos below, if_pos (sameOrder.mp below)]
  · rw [if_neg below, if_neg (below ∘ sameOrder.mpr), same]

end Numeric
end CharacterSheet
