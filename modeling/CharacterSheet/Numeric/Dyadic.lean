/-!
# Doubles as exact binary fractions

A finite double is a sign and a number `mantissa · 2 ^ exponent`.  Rounding to
whole numbers, the remainder of a division and the choice of decimal digits
are all computed on that form, in exact integer arithmetic.

`Dyadic.ofFloat` reads the magnitude off the bits, and `Dyadic.toFloat` writes
a magnitude that a double can hold back into bits.
-/

namespace CharacterSheet
namespace Numeric

/-- A power of two. -/
def powerOfTwo (exponent : Nat) : Nat :=
  Nat.pow 2 exponent

/-- The sign bit, which also zeros carry. -/
def isNegative (x : Float) : Bool :=
  powerOfTwo 63 ≤ x.toBits.toNat

/-- Give a magnitude a sign. -/
def withSign (negative : Bool) (magnitude : Float) : Float :=
  if negative then -magnitude else magnitude

/-- The nonnegative number `mantissa · 2 ^ exponent`. -/
structure Dyadic where
  mantissa : Nat
  exponent : Int
  deriving DecidableEq

namespace Dyadic

/-- The magnitude of a finite double.  Doubles with exponent field `0` have no
implicit leading bit. -/
def ofFloat (x : Float) : Dyadic :=
  let bits := x.toBits.toNat
  let field : Nat := bits / powerOfTwo 52 % 2048
  let fraction := bits % powerOfTwo 52
  if field = 0 then ⟨fraction, -1074⟩ else ⟨powerOfTwo 52 + fraction, (field : Int) - 1075⟩

/-- The same number with a mantissa of at most 53 bits, provided that only
zero bits are shifted out, and with as many bits as the smallest exponent
allows. -/
def normalize (d : Dyadic) : Dyadic :=
  let top := d.mantissa.log2
  if 52 < top then ⟨d.mantissa >>> (top - 52), d.exponent + (top - 52 : Nat)⟩
  else
    let shift := min (52 - top) (d.exponent + 1074).toNat
    ⟨d.mantissa <<< shift, d.exponent - shift⟩

/-- The double of a given sign and magnitude, exact whenever a double can hold
the magnitude. -/
def toFloat (negative : Bool) (d : Dyadic) : Float :=
  let small := d.normalize
  let magnitude :=
    if small.mantissa < powerOfTwo 52 then small.mantissa
    else (small.exponent + 1075).toNat * powerOfTwo 52 + (small.mantissa - powerOfTwo 52)
  withSign negative (Float.ofBits (UInt64.ofNat magnitude))

/-- The whole part of the number, and what is left over as a fraction
`rest / unit`. -/
def split (d : Dyadic) : Nat × Nat × Nat :=
  match d.exponent with
  | .ofNat up => (d.mantissa * powerOfTwo up, 0, 1)
  | .negSucc down =>
    let unit := powerOfTwo (down + 1)
    (d.mantissa / unit, d.mantissa % unit, unit)

end Dyadic

end Numeric
end CharacterSheet
