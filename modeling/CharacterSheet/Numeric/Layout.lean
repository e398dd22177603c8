import CharacterSheet.Numeric.Decimal

/-!
# Written forms of doubles

Both written forms of a double use the shortest digits that denote it.  They
differ in what a `Layout` records: which magnitudes are written out in full,
whether whole numbers show a point, and where an exact tie between two
shortest candidates goes.

`plainText` is the form inside messages and damage texts.  `exactText` is the
form in structured data, where a whole double stays distinguishable from an
integer.
-/

namespace CharacterSheet
namespace Numeric

/-- How the digits of a double are laid out. -/
structure Layout where
  /-- The exponents of the leading digit, lower bound included and upper bound
  excluded, that are written without a power of ten.  All of them if none are
  given. -/
  positional : Option (Int × Int)
  /-- What follows a whole number that is written without a power of ten. -/
  wholeMark : String
  /-- Whether a tie between two shortest candidates goes up, and otherwise to
  the even one. -/
  halfUp : Bool

namespace Layout

/-- Whether a number with the given exponent of its leading digit is written
without a power of ten. -/
def isPositional (layout : Layout) (leading : Int) : Bool :=
  match layout.positional with
  | none => true
  | some (low, high) => low ≤ leading && leading < high

/-- Zeros in a row. -/
def zeros (count : Nat) : String :=
  String.ofList (List.replicate count '0')

/-- Digits times a power of ten, written out in full. -/
def writeInFull (layout : Layout) (digits : List Char) (exponent : Int) : String :=
  match exponent with
  | .ofNat up => String.ofList digits ++ zeros up ++ layout.wholeMark
  | .negSucc down =>
    let places := down + 1
    if places < digits.length then
      let whole := digits.length - places
      String.ofList (digits.take whole) ++ "." ++ String.ofList (digits.drop whole)
    else "0." ++ zeros (places - digits.length) ++ String.ofList digits

/-- Digits and the exponent of the first of them, written with a point behind
the first and a signed power of ten. -/
def writeWithExponent (digits : List Char) (leading : Int) : String :=
  let fraction := digits.drop 1
  let mark := if fraction.isEmpty then "" else "."
  let sign := if leading < 0 then "e-" else "e+"
  String.ofList (digits.take 1) ++ mark ++ String.ofList fraction ++ sign ++
    toString leading.natAbs

/-- Write a finite double. -/
def write (layout : Layout) (x : Float) : String :=
  let decimal := Decimal.ofFloat layout.halfUp x.abs
  let digits := decimal.digits
  let leading := decimal.exponent + (digits.length - 1 : Nat)
  let magnitude :=
    if layout.isPositional leading then layout.writeInFull digits decimal.exponent
    else writeWithExponent digits leading
  if isNegative x then "-" ++ magnitude else magnitude

end Layout

/-- Text layout: every digit is written out, and whole numbers have no
point. -/
def plainLayout : Layout := ⟨none, "", true⟩

/-- Data layout: magnitudes from `10⁻⁵` to below `10¹⁶` are written out, and
whole numbers end in a point and a zero. -/
def exactLayout : Layout := ⟨some (-5, 16), ".0", false⟩

/-- A double inside a text. -/
def plainText (x : Float) : String :=
  if x.isNaN then "NaN"
  else if x.isFinite then plainLayout.write x
  else if isNegative x then "-inf" else "inf"

/-- A finite double inside structured data. -/
def exactText (x : Float) : String :=
  exactLayout.write x

end Numeric
end CharacterSheet
