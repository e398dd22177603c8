import CharacterSheet.Json.Basic
import CharacterSheet.Numeric.Decimal

/-!
# Reading JSON texts

`Json.parse?` accepts the texts of the JSON standard, with three limits: at
most 127 arrays and objects may enclose one another, a surrogate escape must
come in a pair, and a number too large for a double is refused, whether it is
written with an exponent or with all of its digits.  An integer that fits 64
bits, signed or unsigned, stays an integer; every other number becomes the
nearest double.  A reader that scales the leading digits by a power of ten can
miss that double in the last digit, which is not followed here.
-/

namespace CharacterSheet
namespace Json

/-- Whether a character may stand between the tokens of a JSON text. -/
def isSeparator (c : Char) : Bool :=
  c = ' ' || c = '\n' || c = '\t' || c = '\r'

/-- The value of a hexadecimal digit. -/
def hexDigit? (c : Char) : Option Nat :=
  if c.isDigit then some (c.toNat - '0'.toNat)
  else if 'a' ≤ c && c ≤ 'f' then some (c.toNat - 'a'.toNat + 10)
  else if 'A' ≤ c && c ≤ 'F' then some (c.toNat - 'A'.toNat + 10)
  else none

/-- The value of four hexadecimal digits. -/
def hexUnit? (a b c d : Char) : Option Nat := do
  let high := 16 * (← hexDigit? a) + (← hexDigit? b)
  let low := 16 * (← hexDigit? c) + (← hexDigit? d)
  return 256 * high + low

/-- The character of a one-letter escape. -/
def escaped? : Char → Option Char
  | '"' => some '"'
  | '\\' => some '\\'
  | '/' => some '/'
  | 'b' => some '\x08'
  | 'f' => some '\x0c'
  | 'n' => some '\n'
  | 'r' => some '\r'
  | 't' => some '\t'
  | _ => none

/-- Read the rest of a string literal behind its opening quote, given the
characters read so far in reverse. -/
def readString? (seen : List Char) : List Char → Option (String × List Char)
  | [] => none
  | '"' :: rest => some (String.ofList seen.reverse, rest)
  | '\\' :: 'u' :: a :: b :: c :: d :: rest =>
    match hexUnit? a b c d with
    | none => none
    | some unit =>
      if 0xD800 ≤ unit && unit < 0xDC00 then
        match rest with
        | '\\' :: 'u' :: e :: f :: g :: h :: rest =>
          match hexUnit? e f g h with
          | none => none
          | some low =>
            if 0xDC00 ≤ low && low < 0xE000 then
              let code := 0x10000 + (unit - 0xD800) * 0x400 + (low - 0xDC00)
              readString? (Char.ofNat code :: seen) rest
            else none
        | _ => none
      else if 0xDC00 ≤ unit && unit < 0xE000 then none
      else readString? (Char.ofNat unit :: seen) rest
  | '\\' :: letter :: rest =>
    match escaped? letter with
    | some c => readString? (c :: seen) rest
    | none => none
  | c :: rest => if c.toNat < 0x20 then none else readString? (c :: seen) rest

/-- A double with a sign, unless it is too large to be one. -/
def double? (negative : Bool) (magnitude : Float) : Option Number :=
  if magnitude.isFinite then some (.float (Numeric.withSign negative magnitude)) else none

/-- The number of a whole part without fraction and exponent. -/
def integerNumber? (negative : Bool) (magnitude : Nat) : Option Number :=
  let rounded := double? negative (Numeric.Decimal.toFloat ⟨magnitude, 0⟩)
  if negative then
    if magnitude = 0 || Numeric.powerOfTwo 63 < magnitude then rounded
    else some (.int (-(magnitude : Int)))
  else if magnitude < Numeric.powerOfTwo 64 then some (.int magnitude)
  else rounded

/-- Pass a minus sign, if there is one. -/
def readMinus : List Char → Bool × List Char
  | '-' :: rest => (true, rest)
  | text => (false, text)

/-- Whether digits can be the whole part of a number: a zero at the front
stands alone. -/
def isWholePart (digits : List Char) : Bool :=
  !digits.isEmpty && (digits.length == 1 || digits.head? != some '0')

/-- Read the fraction of a number, if there is one. -/
def readFraction? : List Char → Option (Option (List Char) × List Char)
  | '.' :: rest =>
    let (fraction, rest) := Numeric.spanDigits rest
    if fraction.isEmpty then none else some (some fraction, rest)
  | text => some (none, text)

/-- Pass the sign of an exponent, if there is one. -/
def readSign : List Char → Bool × List Char
  | '-' :: rest => (true, rest)
  | '+' :: rest => (false, rest)
  | text => (false, text)

/-- Read the exponent of a number, if there is one. -/
def readPower? : List Char → Option (Option Int × List Char)
  | [] => some (none, [])
  | mark :: rest =>
    if mark = 'e' || mark = 'E' then
      let (down, rest) := readSign rest
      let (digits, rest) := Numeric.spanDigits rest
      let value : Int := Numeric.digitsValue digits
      if digits.isEmpty then none else some (some (if down then -value else value), rest)
    else some (none, mark :: rest)

/-- The number with the given parts. -/
def numberOf? (negative : Bool) (whole : List Char) (fraction : Option (List Char))
    (exponent : Option Int) : Option Number :=
  if fraction.isNone && exponent.isNone then
    integerNumber? negative (Numeric.digitsValue whole)
  else
    double? negative
      (Numeric.Decimal.ofDigits whole (fraction.getD []) (exponent.getD 0)).toFloat

/-- Read a number. -/
def readNumber? (text : List Char) : Option (Number × List Char) := do
  let (negative, unsigned) := readMinus text
  let (whole, afterWhole) := Numeric.spanDigits unsigned
  guard (isWholePart whole)
  let (fraction, afterFraction) ← readFraction? afterWhole
  let (exponent, rest) ← readPower? afterFraction
  let number ← numberOf? negative whole fraction exponent
  return (number, rest)

mutual

/-- Read a value, given the number of steps left and the number of arrays and
objects that may still be opened. -/
def readValue? : Nat → Nat → List Char → Option (Json × List Char)
  | 0, _, _ => none
  | steps + 1, depth, text =>
    match text.dropWhile isSeparator with
    | '[' :: rest =>
      match depth with
      | 0 => none
      | depth + 1 =>
        match rest.dropWhile isSeparator with
        | ']' :: rest => some (arr [], rest)
        | rest => do
          let (items, rest) ← readItems? steps depth rest
          return (arr items, rest)
    | '\x7b' :: rest =>
      match depth with
      | 0 => none
      | depth + 1 =>
        match rest.dropWhile isSeparator with
        | '\x7d' :: rest => some (obj [], rest)
        | rest => do
          let (members, rest) ← readMembers? steps depth rest
          return (object members, rest)
    | '"' :: rest => do
      let (value, rest) ← readString? [] rest
      return (str value, rest)
    | 't' :: 'r' :: 'u' :: 'e' :: rest => some (bool true, rest)
    | 'f' :: 'a' :: 'l' :: 's' :: 'e' :: rest => some (bool false, rest)
    | 'n' :: 'u' :: 'l' :: 'l' :: rest => some (null, rest)
    | rest => do
      let (value, rest) ← readNumber? rest
      return (num value, rest)

/-- Read the items of an array and its closing bracket. -/
def readItems? : Nat → Nat → List Char → Option (List Json × List Char)
  | 0, _, _ => none
  | steps + 1, depth, text => do
    let (item, rest) ← readValue? steps depth text
    match rest.dropWhile isSeparator with
    | ',' :: rest => do
      let (items, rest) ← readItems? steps depth rest
      return (item :: items, rest)
    | ']' :: rest => return ([item], rest)
    | _ => none

/-- Read the members of an object and its closing brace. -/
def readMembers? : Nat → Nat → List Char → Option (List (String × Json) × List Char)
  | 0, _, _ => none
  | steps + 1, depth, text =>
    match text.dropWhile isSeparator with
    | '"' :: rest => do
      let (name, rest) ← readString? [] rest
      match rest.dropWhile isSeparator with
      | ':' :: rest => do
        let (value, rest) ← readValue? steps depth rest
        match rest.dropWhile isSeparator with
        | ',' :: rest => do
          let (members, rest) ← readMembers? steps depth rest
          return ((name, value) :: members, rest)
        | '\x7d' :: rest => return ([(name, value)], rest)
        | _ => none
      | _ => none
    | _ => none

end

/-- How many arrays and objects may enclose one another. -/
def maxDepth : Nat := 127

/-- Read a JSON text.  Every second step of the reader passes a character, so
twice the length of the text is steps enough. -/
def parse? (text : List Char) : Option Json :=
  match readValue? (2 * text.length + 2) maxDepth text with
  | some (value, rest) => if rest.all isSeparator then some value else none
  | none => none

end Json
end CharacterSheet
