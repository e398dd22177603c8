/-!
# Blank characters

The characters with the Unicode property `White_Space`.  They separate the
tokens of formulas and queries, and they are cut off around texts that are
compared or read as numbers.
-/

namespace CharacterSheet
namespace Text

/-- The ranges of code points, both ends included, that hold the blank
characters. -/
def blankRanges : List (Nat × Nat) :=
  [(0x09, 0x0D), (0x20, 0x20), (0x85, 0x85), (0xA0, 0xA0), (0x1680, 0x1680), (0x2000, 0x200A),
    (0x2028, 0x2029), (0x202F, 0x202F), (0x205F, 0x205F), (0x3000, 0x3000)]

/-- Whether a character is blank. -/
def isBlank (c : Char) : Bool :=
  blankRanges.any fun range => range.1 ≤ c.toNat && c.toNat ≤ range.2

/-- Cut blank characters off both ends. -/
def trim (text : List Char) : List Char :=
  ((text.dropWhile isBlank).reverse.dropWhile isBlank).reverse

end Text
end CharacterSheet
