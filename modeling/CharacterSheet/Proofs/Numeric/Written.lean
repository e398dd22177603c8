import CharacterSheet.Numeric.Layout
import CharacterSheet.Proofs.Numeric.Digits
import CharacterSheet.Proofs.Numeric.Magnitude
import CharacterSheet.Proofs.Numeric.Shortest

/-!
# Numbers that are written out in full

A decimal that is written out in full has digits and at most one point among
them.  `WritesInFull` says which text that is, and the reader of numbers reads
it as the double that the decimal denotes.  Together with the shortest decimal
this gives back every finite double, sign included.
-/

namespace CharacterSheet
namespace Numeric

/-! ## Reading decimals without a power of ten -/

/-- A text of digits, with a point among them or not, that writes a decimal. -/
def WritesInFull (text : List Char) (d : Decimal) : Prop :=
  ∃ whole part fraction, text = whole ++ part ∧
    ((part = [] ∧ fraction = []) ∨ part = '.' :: fraction) ∧ whole ≠ [] ∧
      (∀ c ∈ whole, c.isDigit = true) ∧ (∀ c ∈ fraction, c.isDigit = true) ∧
        (Decimal.ofDigits whole fraction 0).value = d.value

/-- Decimals of one value denote one double. -/
theorem Decimal.toFloat_congr {first second : Decimal} (same : first.value = second.value) :
    first.toFloat = second.toFloat := by
  have value_eq_zero (d : Decimal) : d.value = 0 ↔ d.coefficient = 0 := by
    rw [value, mul_eq_zero, Nat.cast_eq_zero, or_iff_left (by positivity)]
  by_cases empty : second.coefficient = 0
  · have emptyFirst : first.coefficient = 0 := by
      rwa [← value_eq_zero, same, value_eq_zero]
    rw [toFloat, toFloat, if_pos empty, if_pos emptyFirst]
  · have some : first.coefficient ≠ 0 := by
      rwa [ne_eq, ← value_eq_zero, same, value_eq_zero]
    rw [toFloat_eq (Nat.pos_of_ne_zero some), toFloat_eq (Nat.pos_of_ne_zero empty), same]

variable {text : List Char} {d : Decimal}

theorem WritesInFull.readMagnitude? (writes : WritesInFull text d) :
    readMagnitude? text = some d.toFloat := by
  rcases writes with ⟨whole, part, fraction, rfl, behind, nonempty, isDigit, isDigitFraction, same⟩
  have notEmpty : whole.isEmpty = false := List.isEmpty_eq_false_iff.mpr nonempty
  rcases behind with ⟨rfl, rfl⟩ | rfl
  · have taken : spanDigits (whole ++ []) = (whole, []) :=
      spanDigits_append isDigit (by rintro _ ⟨⟩)
    simp only [Numeric.readMagnitude?, taken, notEmpty, readExponent?]
    exact congrArg some (Decimal.toFloat_congr same)
  · have taken : spanDigits (whole ++ '.' :: fraction) = (whole, '.' :: fraction) :=
      spanDigits_append isDigit (by rintro _ ⟨⟩; decide)
    have takenFraction : spanDigits fraction = (fraction, []) := by
      have all : spanDigits (fraction ++ []) = _ := spanDigits_append isDigitFraction (by rintro _ ⟨⟩)
      rwa [List.append_nil] at all
    simp only [Numeric.readMagnitude?, taken, takenFraction, notEmpty, readExponent?]
    exact congrArg some (Decimal.toFloat_congr same)

theorem toLower_of_isDigit {c : Char} (digit : c.isDigit = true) : c.toLower = c := by
  have bounds : 48 ≤ c.val.toNat ∧ c.val.toNat ≤ 57 := by
    simpa [Char.isDigit, UInt32.le_iff_toNat_le] using digit
  rw [Char.toLower, dif_neg]
  rintro ⟨least, -⟩
  rw [ge_iff_le, UInt32.le_iff_toNat_le] at least
  exact absurd (least.trans bounds.2) (by decide)

/-- A text that begins with a digit has no sign and is no word. -/
theorem readFloat?_of_digit {first : Char} {rest : List Char} (digit : first.isDigit = true) :
    readFloat? (first :: rest) = readMagnitude? (first :: rest) := by
  have different {c : Char} (noDigit : c.isDigit = false) : first ≠ c := by
    rintro rfl
    rw [digit] at noDigit
    cases noDigit
  have noWord (word : String) (letters : ∀ c ∈ word.toList.head?, c.isDigit = false) :
      String.ofList ((first :: rest).map Char.toLower) ≠ word := by
    rintro rfl
    rw [String.toList_ofList, List.map_cons, toLower_of_isDigit digit] at letters
    exact different (letters first rfl) rfl
  have notInf := noWord "inf" (by rintro _ ⟨⟩; decide)
  have notInfinity := noWord "infinity" (by rintro _ ⟨⟩; decide)
  have notNan := noWord "nan" (by rintro _ ⟨⟩; decide)
  unfold readFloat?
  split
  rename_i negative magnitude sign
  split at sign
  · rename_i minus
    exact absurd (List.cons.inj minus).1 (different (by decide))
  · rename_i plus
    exact absurd (List.cons.inj plus).1 (different (by decide))
  · cases sign
    dsimp only
    rw [decide_eq_false notInf, decide_eq_false notInfinity, if_neg notNan]
    exact Option.map_id'

theorem WritesInFull.readFloat? (writes : WritesInFull text d) :
    readFloat? text = some d.toFloat := by
  have read := writes.readMagnitude?
  rcases writes with ⟨whole, part, fraction, rfl, -, nonempty, isDigit, -, -⟩
  cases whole with
  | nil => exact absurd rfl nonempty
  | cons first whole =>
    rw [List.cons_append, readFloat?_of_digit (isDigit first List.mem_cons_self)]
    exact read

/-! ## Writing decimals without a power of ten -/

theorem WritesInFull.congr {other : Decimal} (writes : WritesInFull text d)
    (same : d.value = other.value) : WritesInFull text other := by
  rcases writes with ⟨whole, part, fraction, spelled, behind, nonempty, digits, digitsFraction, value⟩
  exact ⟨whole, part, fraction, spelled, behind, nonempty, digits, digitsFraction, value.trans same⟩

theorem writesInFull_whole {whole : List Char} (nonempty : whole ≠ [])
    (isDigit : ∀ c ∈ whole, c.isDigit = true) : WritesInFull whole ⟨digitsValue whole, 0⟩ :=
  ⟨whole, [], [], by simp, Or.inl ⟨rfl, rfl⟩, nonempty, isDigit, by simp,
    by simp [Decimal.ofDigits]⟩

theorem writesInFull_point {whole fraction : List Char} (nonempty : whole ≠ [])
    (isDigit : ∀ c ∈ whole ++ fraction, c.isDigit = true) :
    WritesInFull (whole ++ '.' :: fraction) ⟨digitsValue (whole ++ fraction), -fraction.length⟩ :=
  ⟨whole, _, fraction, rfl, Or.inr rfl, nonempty,
    fun c member => isDigit c (List.mem_append_left _ member),
    fun c member => isDigit c (List.mem_append_right _ member), by simp [Decimal.ofDigits]⟩

/-- Writing out in full gives digits that write the decimal, whether whole
numbers get a point or not. -/
theorem writesInFull {layout : Layout} (mark : layout.wholeMark = "" ∨ layout.wholeMark = ".0")
    (d : Decimal) : WritesInFull (layout.writeInFull d.digits d.exponent).toList d := by
  have isDigit : ∀ c ∈ d.digits, c.isDigit = true :=
    fun c member => Nat.isDigit_of_mem_toDigits (by decide) (by decide) member
  have value : digitsValue d.digits = d.coefficient := digitsValue_toDigits d.coefficient
  have nonempty : d.digits ≠ [] := Nat.toDigits_ne_nil
  rcases d with ⟨coefficient, exponent⟩
  dsimp only at value ⊢
  generalize (⟨coefficient, exponent⟩ : Decimal).digits = digits at isDigit value nonempty ⊢
  subst value
  have isDigitZeros (count : ℕ) : ∀ c ∈ List.replicate count '0', c.isDigit = true := by
    intro c member
    rw [List.eq_of_mem_replicate member]
    decide
  cases exponent with
  | ofNat up =>
    have wholeDigits := List.forall_mem_append.mpr ⟨isDigit, isDigitZeros up⟩
    have wholeNonempty : digits ++ List.replicate up '0' ≠ [] := by simp [nonempty]
    rcases mark with plain | pointed
    · have spelled : (layout.writeInFull digits (.ofNat up)).toList =
          digits ++ List.replicate up '0' := by
        simp [Layout.writeInFull, plain, Layout.zeros]
      rw [spelled]
      refine (writesInFull_whole wholeNonempty wholeDigits).congr ?_
      simp [Decimal.value, digitsValue_append, digitsValue_zeros]
    · have spelled : (layout.writeInFull digits (.ofNat up)).toList =
          digits ++ List.replicate up '0' ++ ['.', '0'] := by
        simp [Layout.writeInFull, pointed, Layout.zeros]
      rw [spelled]
      refine (writesInFull_point wholeNonempty
        (List.forall_mem_append.mpr ⟨wholeDigits, isDigitZeros 1⟩)).congr ?_
      have none := digitsValue_zeros 1
      rw [List.replicate_one] at none
      simp [Decimal.value, digitsValue_append, digitsValue_zeros, none]
      rw [pow_succ]
      field_simp
  | negSucc down =>
    by_cases inside : down + 1 < digits.length
    · have parts := List.take_append_drop (digits.length - (down + 1)) digits
      have spelled : (layout.writeInFull digits (.negSucc down)).toList =
          digits.take (digits.length - (down + 1)) ++
            '.' :: digits.drop (digits.length - (down + 1)) := by
        simp [Layout.writeInFull, inside]
      rw [spelled]
      refine (writesInFull_point ?_ (by rwa [parts])).congr ?_
      · rw [← List.length_pos_iff, List.length_take]
        omega
      · rw [parts, List.length_drop, Nat.sub_sub_self inside.le]
        rfl
    · have spelled : (layout.writeInFull digits (.negSucc down)).toList =
          ['0'] ++ '.' :: (List.replicate (down + 1 - digits.length) '0' ++ digits) := by
        simp [Layout.writeInFull, inside, Layout.zeros]
      rw [spelled]
      refine (writesInFull_point (by simp) (List.forall_mem_append.mpr ⟨isDigitZeros 1,
        List.forall_mem_append.mpr ⟨isDigitZeros _, isDigit⟩⟩)).congr ?_
      rw [digitsValue_append, digitsValue_append, digitsValue_zeros, digitsValue_zeros,
        Nat.zero_mul, Nat.zero_add, Nat.zero_mul, Nat.zero_add, List.length_append,
        List.length_replicate, Nat.sub_add_cancel (Nat.not_lt.mp inside)]
      rfl

theorem writesInFull_toString (number : ℕ) :
    WritesInFull (toString number).toList ⟨number, 0⟩ := by
  have nonempty : (toString number).toList ≠ [] := by
    rw [toList_toString]
    exact Nat.toDigits_ne_nil
  have writes := writesInFull_whole nonempty fun c => isDigit_of_mem_toString
  rwa [toList_toString, digitsValue_toDigits, ← toList_toString] at writes

/-! ## Numbers with a sign -/

/-- A text that writes a number in full behind a minus sign or none. -/
def WritesPlainly (text : List Char) (x : Float) : Prop :=
  ∃ (negative : Bool) (magnitude : List Char) (d : Decimal),
    text = (if negative then ['-'] else []) ++ magnitude ∧ WritesInFull magnitude d ∧
      x = withSign negative d.toFloat

variable {x : Float}

/-- The shortest decimal of a finite magnitude is read as that magnitude. -/
theorem toFloat_ofFloat_abs (finite : x.isFinite = true) (halfUp : Bool) :
    (Decimal.ofFloat halfUp x.abs).toFloat = x.abs := by
  rcases abs_zero_or_hasParts finite with zero | ⟨mantissa, exponent, parts⟩
  · rw [zero]
    rfl
  · exact Decimal.toFloat_ofFloat parts halfUp

/-- The exponent of the first digit of the shortest decimal. -/
def Layout.leading (layout : Layout) (x : Float) : ℤ :=
  (Decimal.ofFloat layout.halfUp x.abs).exponent +
    ((Decimal.ofFloat layout.halfUp x.abs).digits.length - 1 : ℕ)

/-- A number of a magnitude that is written without a power of ten is written
in full. -/
theorem writesPlainly_write {layout : Layout}
    (mark : layout.wholeMark = "" ∨ layout.wholeMark = ".0") (finite : x.isFinite = true)
    (positional : layout.isPositional (layout.leading x) = true) :
    WritesPlainly (layout.write x).toList x := by
  refine ⟨isNegative x, _, Decimal.ofFloat layout.halfUp x.abs, ?_, writesInFull mark _, ?_⟩
  · have unfolded : layout.write x = (if isNegative x then "-" else "") ++
        layout.writeInFull (Decimal.ofFloat layout.halfUp x.abs).digits
          (Decimal.ofFloat layout.halfUp x.abs).exponent := by
      unfold Layout.leading at positional
      unfold Layout.write
      simp only [positional, if_true]
      split <;> simp
    rw [unfolded, String.toList_append]
    split <;> rfl
  · rw [toFloat_ofFloat_abs finite, withSign_abs finite]

/-- A number of another magnitude is written with a letter, a sign and the
digits of a power of ten behind a number that is written in full. -/
theorem write_of_not_positional {layout : Layout}
    (scientific : layout.isPositional (layout.leading x) = false) :
    ∃ (magnitude : List Char) (d : Decimal) (sign : Char) (power : ℕ),
      WritesInFull magnitude d ∧ (sign = '-' ∨ sign = '+') ∧
        (layout.write x).toList = (if isNegative x then ['-'] else []) ++
          (magnitude ++ 'e' :: sign :: (toString power).toList) := by
  have isDigit : ∀ c ∈ (Decimal.ofFloat layout.halfUp x.abs).digits, c.isDigit = true :=
    fun c member => Nat.isDigit_of_mem_toDigits (by decide) (by decide) member
  have nonempty : (Decimal.ofFloat layout.halfUp x.abs).digits ≠ [] := Nat.toDigits_ne_nil
  have unfolded : layout.write x = (if isNegative x then "-" else "") ++
      Layout.writeWithExponent (Decimal.ofFloat layout.halfUp x.abs).digits
        (layout.leading x) := by
    unfold Layout.leading at scientific ⊢
    unfold Layout.write
    simp only [scientific]
    split <;> simp
  rw [unfolded]
  generalize (Decimal.ofFloat layout.halfUp x.abs).digits = digits at isDigit nonempty ⊢
  generalize layout.leading x = leading
  cases digits with
  | nil => exact absurd rfl nonempty
  | cons first rest =>
    rcases List.forall_mem_cons.mp isDigit with ⟨digit, isDigit⟩
    have signed : ∃ sign, (sign = '-' ∨ sign = '+') ∧
        (if leading < 0 then "e-" else "e+") = String.ofList ['e', sign] := by
      split
      · exact ⟨'-', Or.inl rfl, rfl⟩
      · exact ⟨'+', Or.inr rfl, rfl⟩
    rcases signed with ⟨sign, signs, marked⟩
    have prefixed : (if isNegative x then "-" else "").toList =
        if isNegative x then ['-'] else [] := by
      split <;> rfl
    cases rest with
    | nil =>
      refine ⟨[first], _, sign, leading.natAbs, writesInFull_whole (List.cons_ne_nil _ _)
        (List.forall_mem_cons.mpr ⟨digit, isDigit⟩), signs, ?_⟩
      simp [Layout.writeWithExponent, marked, prefixed]
    | cons second rest =>
      have point : WritesInFull ([first] ++ '.' :: second :: rest) _ :=
        writesInFull_point (List.cons_ne_nil _ _) (List.forall_mem_cons.mpr ⟨digit, isDigit⟩)
      refine ⟨_, _, sign, leading.natAbs, point, signs, ?_⟩
      simp [Layout.writeWithExponent, marked, prefixed]

/-- The form inside texts writes every finite number in full. -/
theorem writesPlainly_plainText (finite : x.isFinite = true) :
    WritesPlainly (plainText x).toList x := by
  rw [plainText, isNaN_of_isFinite finite, if_neg Bool.false_ne_true, if_pos finite]
  exact writesPlainly_write (Or.inl rfl) finite rfl

/-- The decimal digits of an integer write it in full. -/
theorem writesPlainly_int (value : ℤ) :
    WritesPlainly (toString value).toList (Float.ofInt value) := by
  have nearest (number : ℕ) : Float.ofNat number = (⟨number, 0⟩ : Decimal).toFloat := by
    rcases Nat.eq_zero_or_pos number with rfl | positive
    · rfl
    · have notLarge : ¬ 400 < (0 : ℤ) := by decide
      have notSmall : ¬ (0 : ℤ) + (number.log2 : ℤ) < -400 := by omega
      rw [Decimal.toFloat, if_neg positive.ne', if_neg notLarge, if_neg notSmall]
      rfl
  cases value with
  | ofNat number =>
    refine ⟨false, _, _, ?_, writesInFull_toString number, nearest number⟩
    rfl
  | negSucc number =>
    refine ⟨true, _, _, ?_, writesInFull_toString (number + 1),
      congrArg Float.neg (nearest (number + 1))⟩
    have unfolded : toString (Int.negSucc number) = "-" ++ toString (number + 1) := rfl
    rw [unfolded, String.toList_append]
    rfl

end Numeric
end CharacterSheet
