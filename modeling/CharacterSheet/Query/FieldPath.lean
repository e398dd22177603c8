import CharacterSheet.Json.Basic
import CharacterSheet.Numeric.Decimal
import CharacterSheet.Text.Affix

/-!
# Field paths

A field path is a plain alternative to a query: names separated by dots.  Each
name leads to a member of an object, and a name that is a number leads to an
item of an array.
-/

namespace CharacterSheet

namespace Numeric

/-- Read a natural number below a bound: digits, after an optional plus
sign. -/
def readNatBelow? (bound : Nat) (text : List Char) : Option Nat :=
  let digits :=
    match text with
    | '+' :: rest => rest
    | _ => text
  if digits.isEmpty || !digits.all Char.isDigit then none
  else
    let value := digitsValue digits
    if value < bound then some value else none

end Numeric

namespace Json

/-- The part of a value that one name of a path leads to. -/
def step? (value : Json) (name : List Char) : Option Json :=
  match value with
  | obj members => members.lookup (String.ofList name)
  | arr items => (Numeric.readNatBelow? (Numeric.powerOfTwo 64) name).bind fun place => items[place]?
  | _ => none

/-- The part of a value that a field path leads to. -/
def atPath? (value : Json) (path : String) : Option Json :=
  (Text.splitAtEach '.' path.toList).foldlM step? value

end Json

end CharacterSheet
