import CharacterSheet.Numeric.Dyadic

/-!
# Rounding, remainders and extremes of doubles

The numeric operations that formulas use beside the four basic ones.  All are
exact: each is computed on the binary form of its arguments, and its result is
a double without further rounding.

Two conventions run through the library.  A number that is not finite never
becomes the value of a variable; `orZero` replaces it.  And an undefined
operand of `minimum` or `maximum` is passed over rather than spread.
-/

namespace CharacterSheet
namespace Numeric

/-- The number itself if it is finite, and zero otherwise. -/
def orZero (x : Float) : Float :=
  if x.isFinite then x else 0

/-- Round to a whole number by a rule that is told the sign, the whole part
of the magnitude, and the fraction `rest / unit` left over.  The result keeps
the sign, so that a negative fraction rounded to zero is negative zero.
Numbers without a fraction, and those that are not finite, stay as they are. -/
def roundBy (rule : Bool → Nat → Nat → Nat → Nat) (x : Float) : Float :=
  if x.isFinite then
    let (whole, rest, unit) := (Dyadic.ofFloat x).split
    if rest = 0 then x
    else withSign (isNegative x) (Float.ofNat (rule (isNegative x) whole rest unit))
  else x

/-- The nearest whole number toward zero. -/
def truncate : Float → Float :=
  roundBy fun _ whole _ _ => whole

/-- The largest whole number that is not above. -/
def floor : Float → Float :=
  roundBy fun negative whole _ _ => if negative then whole + 1 else whole

/-- The smallest whole number that is not below. -/
def ceiling : Float → Float :=
  roundBy fun negative whole _ _ => if negative then whole else whole + 1

/-- The nearest whole number; a half goes away from zero. -/
def round : Float → Float :=
  roundBy fun _ whole rest unit => if unit ≤ 2 * rest then whole + 1 else whole

/-- Whether a finite number has no fraction. -/
def isWhole (x : Float) : Bool :=
  x.isFinite && (Dyadic.ofFloat x).split.2.1 == 0

/-- The whole part of a finite number, toward zero, as an integer. -/
def toInt (x : Float) : Int :=
  if x.isFinite then
    let whole := (Dyadic.ofFloat x).split.1
    if isNegative x then -(whole : Int) else whole
  else 0

/-- The whole part of a number toward zero, limited to a range; zero for an
undefined number. -/
def toIntWithin (low high : Int) (x : Float) : Int :=
  if x.isNaN then 0
  else if x.isFinite then max low (min high (toInt x))
  else if isNegative x then low else high

/-- The total of some numbers, added from the left.  The total of none is
negative zero, the number that leaves every other one as it is. -/
def sum (numbers : List Float) : Float :=
  numbers.foldl (· + ·) (-0.0)

/-- The remainder of a division toward zero.  It has the sign of the dividend
and is exact. -/
def remainder (x y : Float) : Float :=
  if x.isNaN || y.isNaN || x.isInf || y == 0 then 0.0 / 0.0
  else if y.isInf then x
  else
    let dividend := Dyadic.ofFloat x
    let divisor := Dyadic.ofFloat y
    let exponent := min dividend.exponent divisor.exponent
    let aligned (d : Dyadic) : Nat :=
      d.mantissa * powerOfTwo (d.exponent - exponent).toNat
    Dyadic.toFloat (isNegative x) ⟨aligned dividend % aligned divisor, exponent⟩

/-- The smaller of two numbers; an undefined one is passed over, and of two
equal ones the first is taken. -/
def minimum (x y : Float) : Float :=
  if x.isNaN then y else if y < x then y else x

/-- The larger of two numbers; an undefined one is passed over, and of two
equal ones the first is taken. -/
def maximum (x y : Float) : Float :=
  if x.isNaN then y else if x < y then y else x

end Numeric
end CharacterSheet
