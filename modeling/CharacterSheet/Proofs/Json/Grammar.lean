import CharacterSheet.Json.Reader

/-!
# The grammar of JSON texts

`Writes` says which texts write which values, without reference to the reader:
one rule for each way in which the grammar forms a text.
-/

namespace CharacterSheet
namespace Json
namespace Grammar

/-- The fraction of a number, if there is one. -/
inductive WritesFraction : List Char → Option (List Char) → Prop where
  | absent : WritesFraction [] none
  | present {digits : List Char} (written : digits ≠ [])
      (isDigit : ∀ c ∈ digits, c.isDigit = true) :
      WritesFraction ('.' :: digits) (some digits)

/-- The sign of an exponent, if there is one. -/
inductive WritesSign : List Char → Bool → Prop where
  | absent : WritesSign [] false
  | plus : WritesSign ['+'] false
  | minus : WritesSign ['-'] true

/-- The exponent of a number, if there is one. -/
inductive WritesPower : List Char → Option Int → Prop where
  | absent : WritesPower [] none
  | present {mark : Char} {sign digits : List Char} {down : Bool}
      (marks : mark = 'e' ∨ mark = 'E') (signs : WritesSign sign down) (written : digits ≠ [])
      (isDigit : ∀ c ∈ digits, c.isDigit = true) :
      WritesPower (mark :: (sign ++ digits))
        (some (if down then -(Numeric.digitsValue digits : Int) else Numeric.digitsValue digits))

/-- The sign of a number, if there is one. -/
inductive WritesMinus : List Char → Bool → Prop where
  | absent : WritesMinus [] false
  | present : WritesMinus ['-'] true

/-- Numbers. -/
inductive WritesNumber : List Char → Number → Prop where
  | parts {minus whole part power : List Char} {negative : Bool}
      {fraction : Option (List Char)} {exponent : Option Int} {number : Number}
      (signs : WritesMinus minus negative) (isWhole : isWholePart whole = true)
      (isDigit : ∀ c ∈ whole, c.isDigit = true) (behindPoint : WritesFraction part fraction)
      (raised : WritesPower power exponent)
      (made : numberOf? negative whole fraction exponent = some number) :
      WritesNumber (minus ++ (whole ++ (part ++ power))) number

/-- The contents of string literals, with the closing quote. -/
inductive WritesString : List Char → List Char → Prop where
  | closed : WritesString ['"'] []
  | plain {c : Char} {text content : List Char} (printable : 0x20 ≤ c.toNat)
      (noQuote : c ≠ '"') (noEscape : c ≠ '\\') (behind : WritesString text content) :
      WritesString (c :: text) (c :: content)
  | letter {letter c : Char} {text content : List Char} (escapes : escaped? letter = some c)
      (behind : WritesString text content) : WritesString ('\\' :: letter :: text) (c :: content)
  | unit {a b c d : Char} {unit : Nat} {text content : List Char}
      (hex : hexUnit? a b c d = some unit) (single : ¬(0xD800 ≤ unit ∧ unit < 0xE000))
      (behind : WritesString text content) :
      WritesString ('\\' :: 'u' :: a :: b :: c :: d :: text) (Char.ofNat unit :: content)
  | pair {a b c d e f g h : Char} {high low : Nat} {text content : List Char}
      (hexHigh : hexUnit? a b c d = some high) (isHigh : 0xD800 ≤ high ∧ high < 0xDC00)
      (hexLow : hexUnit? e f g h = some low) (isLow : 0xDC00 ≤ low ∧ low < 0xE000)
      (behind : WritesString text content) :
      WritesString
        ('\\' :: 'u' :: a :: b :: c :: d :: '\\' :: 'u' :: e :: f :: g :: h :: text)
        (Char.ofNat (0x10000 + (high - 0xD800) * 0x400 + (low - 0xDC00)) :: content)

/-- What is written: a value, the items of an array with its closing bracket,
or the members of an object with its closing brace. -/
inductive Content where
  | value (value : Json)
  | items (items : List Json)
  | members (members : List (String × Json))

/-- Nothing but separators. -/
def IsGap (gap : List Char) : Prop :=
  ∀ c ∈ gap, isSeparator c = true

/-- The texts that write values, with at most so many arrays and objects around
one another. -/
inductive Writes : Nat → List Char → Content → Prop where
  | spaced {depth : Nat} {c : Char} {text : List Char} {content : Content}
      (separator : isSeparator c = true) (inner : Writes depth text content) :
      Writes depth (c :: text) content
  | null {depth : Nat} : Writes depth ['n', 'u', 'l', 'l'] (.value .null)
  | yes {depth : Nat} : Writes depth ['t', 'r', 'u', 'e'] (.value (.bool true))
  | no {depth : Nat} : Writes depth ['f', 'a', 'l', 's', 'e'] (.value (.bool false))
  | number {depth : Nat} {text : List Char} {number : Number} (inner : WritesNumber text number) :
      Writes depth text (.value (.num number))
  | string {depth : Nat} {text content : List Char} (inner : WritesString text content) :
      Writes depth ('"' :: text) (.value (.str (String.ofList content)))
  | noItems {depth : Nat} {gap : List Char} (isGap : IsGap gap) :
      Writes (depth + 1) ('[' :: (gap ++ [']'])) (.value (.arr []))
  | array {depth : Nat} {text : List Char} {items : List Json}
      (inner : Writes depth text (.items items)) :
      Writes (depth + 1) ('[' :: text) (.value (.arr items))
  | noMembers {depth : Nat} {gap : List Char} (isGap : IsGap gap) :
      Writes (depth + 1) ('\x7b' :: (gap ++ ['\x7d'])) (.value (.obj []))
  | object {depth : Nat} {text : List Char} {members : List (String × Json)}
      (inner : Writes depth text (.members members)) :
      Writes (depth + 1) ('\x7b' :: text) (.value (object members))
  | lastItem {depth : Nat} {text gap : List Char} {item : Json}
      (inner : Writes depth text (.value item)) (isGap : IsGap gap) :
      Writes depth (text ++ (gap ++ [']'])) (.items [item])
  | item {depth : Nat} {text gap more : List Char} {item : Json} {items : List Json}
      (inner : Writes depth text (.value item)) (isGap : IsGap gap)
      (behind : Writes depth more (.items items)) :
      Writes depth (text ++ (gap ++ ',' :: more)) (.items (item :: items))
  | lastMember {depth : Nat} {quoted name before text after : List Char} {value : Json}
      (named : WritesString quoted name) (gapBefore : IsGap before)
      (inner : Writes depth text (.value value)) (gapAfter : IsGap after) :
      Writes depth ('"' :: (quoted ++ (before ++ ':' :: (text ++ (after ++ ['\x7d'])))))
        (.members [(String.ofList name, value)])
  | member {depth : Nat} {quoted name before text after more : List Char} {value : Json}
      {members : List (String × Json)}
      (named : WritesString quoted name) (gapBefore : IsGap before)
      (inner : Writes depth text (.value value)) (gapAfter : IsGap after)
      (behind : Writes depth more (.members members)) :
      Writes depth ('"' :: (quoted ++ (before ++ ':' :: (text ++ (after ++ ',' :: more)))))
        (.members ((String.ofList name, value) :: members))

end Grammar
end Json
end CharacterSheet
