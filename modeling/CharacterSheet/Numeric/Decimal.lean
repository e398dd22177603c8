import CharacterSheet.Numeric.Dyadic

/-!
# Decimal numbers and the doubles they denote

A decimal `coefficient · 10 ^ exponent` denotes the nearest double.
`Decimal.ofFloat` goes back: it finds the decimal with the fewest digits that
denotes a given double and, among those, the nearest to it.

The search runs over decimal grids from coarse to fine.  If any point of a
grid denotes the double, then so does one of the two grid points around it,
so only these two are tried.  Whether a candidate denotes the double is
decided by reading it, which makes the result read back by construction.
-/

namespace CharacterSheet
namespace Numeric

/-- The nonnegative number `coefficient · 10 ^ exponent`. -/
structure Decimal where
  coefficient : Nat
  exponent : Int
  deriving DecidableEq

/-- The number written by a run of decimal digits. -/
def digitsValue (digits : List Char) : Nat :=
  digits.foldl (fun value digit => 10 * value + (digit.toNat - '0'.toNat)) 0

namespace Decimal

/-- The decimal written `whole.fraction`, times a power of ten. -/
def ofDigits (whole fraction : List Char) (exponent : Int) : Decimal :=
  ⟨digitsValue (whole ++ fraction), exponent - fraction.length⟩

/-- The nearest double; an exact half goes to the even neighbour.  Exponents
far outside the range of doubles are settled without computing the power. -/
def toFloat (d : Decimal) : Float :=
  if d.coefficient = 0 then 0
  else if 400 < d.exponent then 1.0 / 0.0
  else if d.exponent + d.coefficient.log2 < -400 then 0
  else
    match d.exponent with
    | .ofNat up => Float.ofScientific d.coefficient false up
    | .negSucc down => Float.ofScientific d.coefficient true (down + 1)

/-- Whether the decimal denotes a given double. -/
def denotes (d : Decimal) (x : Float) : Bool :=
  d.toFloat.toBits == x.toBits

/-- The larger multiple of `10 ^ exponent` not above a binary fraction, in
units of `10 ^ exponent`, and the comparison of twice the distance to it with
the unit. -/
def below (d : Dyadic) (exponent : Int) : Nat × Ordering :=
  let numerator := d.mantissa * powerOfTwo d.exponent.toNat * Nat.pow 10 (-exponent).toNat
  let denominator := powerOfTwo (-d.exponent).toNat * Nat.pow 10 exponent.toNat
  (numerator / denominator, compare (2 * (numerator % denominator)) denominator)

/-- The point of a grid that denotes a double, if there is one.  Of two the
nearer counts; a tie goes up or to the even one. -/
def onGrid? (halfUp : Bool) (x : Float) (exponent : Int) : Option Decimal :=
  let (low, distance) := below (Dyadic.ofFloat x) exponent
  let lower : Decimal := ⟨low, exponent⟩
  let upper : Decimal := ⟨low + 1, exponent⟩
  match lower.denotes x, upper.denotes x, distance with
  | true, true, .lt => some lower
  | true, true, .gt => some upper
  | true, true, .eq => some (if !halfUp && low % 2 == 0 then lower else upper)
  | true, false, _ => some lower
  | false, true, _ => some upper
  | false, false, _ => none

/-- Try grids of falling exponent, at most as many as given; when none has a
hit, take the finest. -/
def search (halfUp : Bool) (x : Float) : Nat → Int → Decimal
  | 0, exponent => ⟨(below (Dyadic.ofFloat x) exponent).1, exponent⟩
  | grids + 1, exponent =>
    match onGrid? halfUp x exponent with
    | some found => found
    | none => search halfUp x grids (exponent - 1)

/-- The shortest decimal that denotes a nonnegative finite double.  Seventeen
digits always suffice; three more grids make up for the estimate of the first
digit's place. -/
def ofFloat (halfUp : Bool) (x : Float) : Decimal :=
  let d := Dyadic.ofFloat x
  if d.mantissa = 0 then ⟨0, 0⟩
  else search halfUp x 20 ((d.exponent + d.mantissa.log2 + 1) * 30103 / 100000 + 1)

/-- The digits of the coefficient. -/
def digits (d : Decimal) : List Char :=
  Nat.toDigits 10 d.coefficient

end Decimal

/-- Any number of decimal digits from the front of a text, and the rest. -/
def spanDigits (text : List Char) : List Char × List Char :=
  text.span Char.isDigit

/-- The power of ten at the end of a number text: nothing, or a letter `e` of
either case, an optional sign and digits. -/
def readExponent? : List Char → Option Int
  | [] => some 0
  | mark :: rest =>
    if mark = 'e' || mark = 'E' then
      let (negative, digits) :=
        match rest with
        | '-' :: digits => (true, digits)
        | '+' :: digits => (false, digits)
        | digits => (false, digits)
      if digits.isEmpty || !digits.all Char.isDigit then none
      else some (if negative then -(digitsValue digits : Int) else digitsValue digits)
    else none

/-- Read a number without sign: digits with at most one point before, among
or after them, then an optional exponent. -/
def readMagnitude? (text : List Char) : Option Float :=
  let (whole, afterWhole) := spanDigits text
  let (fraction, rest) :=
    match afterWhole with
    | '.' :: afterPoint => spanDigits afterPoint
    | _ => ([], afterWhole)
  if whole.isEmpty && fraction.isEmpty then none
  else (readExponent? rest).map fun exponent => (Decimal.ofDigits whole fraction exponent).toFloat

/-- Read a number: an optional sign, then a decimal number or one of the words
for infinity and for an undefined number, in any letter case. -/
def readFloat? (text : List Char) : Option Float :=
  let (negative, magnitude) :=
    match text with
    | '-' :: rest => (true, rest)
    | '+' :: rest => (false, rest)
    | rest => (false, rest)
  let word := String.ofList (magnitude.map Char.toLower)
  if word = "inf" || word = "infinity" then some (withSign negative (1.0 / 0.0))
  else if word = "nan" then some (0.0 / 0.0)
  else (readMagnitude? magnitude).map (withSign negative)

end Numeric
end CharacterSheet
