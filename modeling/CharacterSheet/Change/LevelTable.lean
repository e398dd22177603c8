import CharacterSheet.Json.Record
import CharacterSheet.Query.FieldPath
import CharacterSheet.Text.Blank

/-!
# Tables by class level

A level table has a row of numbers for some class levels.  A row is indexed by
spell level, from zero.  The numbers that a text writes are all defined; a table
that is put together from rows can hold any double, and an undefined one is
neither positive nor at most zero.
-/

namespace CharacterSheet

/-- Rows of numbers by class level. -/
structure LevelTable where
  rows : SortedMap Nat (List Float)
  deriving BEq, Inhabited

namespace LevelTable

def empty : LevelTable := ⟨SortedMap.empty⟩

/-- Set the row of a class level. -/
def withRow (table : LevelTable) (level : Nat) (row : List Float) : LevelTable :=
  ⟨table.rows.insert level row⟩

/-- The row of a class level. -/
def row? (table : LevelTable) (level : Nat) : Option (List Float) :=
  table.rows.find? level

/-- The row of a class level, empty if there is none. -/
def row (table : LevelTable) (level : Nat) : List Float :=
  (table.row? level).getD []

/-- The spell levels with a positive number in the row of a class level, and
these numbers. -/
def positives (table : LevelTable) (level : Nat) : List (Nat × Float) :=
  ((table.row level).zipIdx.filter fun entry => 0 < entry.1).map fun entry => (entry.2, entry.1)

/-- The spell levels in the row of a class level, without those whose number is
at most zero, and these numbers.  An undefined number is not left out. -/
def withoutEmpty (table : LevelTable) (level : Nat) : List (Nat × Float) :=
  ((table.row level).zipIdx.filter fun entry => !(entry.1 ≤ 0)).map fun entry =>
    (entry.2, entry.1)

/-- The first number in the row of a class level. -/
def first? (table : LevelTable) (level : Nat) : Option Float :=
  (table.row level).head?

/-- A class level written as the name of a member. -/
def level? (text : String) : Option Nat :=
  Numeric.readNatBelow? (Numeric.powerOfTwo 32) (Text.trim text.toList)

def toJson (table : LevelTable) : Json :=
  Json.ofMapBy toString (Json.ofList Json.ofFloat) table.rows

def ofJson? (value : Json) : Option LevelTable :=
  LevelTable.mk <$> Json.mapBy? level? (Json.list? Json.float?) value

end LevelTable

end CharacterSheet
