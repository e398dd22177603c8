import CharacterSheet.Json.Record

/-!
# Size categories

Creatures come in nine sizes.  Counted from medium, each step up makes a
creature easier to hit and stronger in special attacks.
-/

namespace CharacterSheet

/-- A size category. -/
inductive SizeCategory where
  | fine
  | diminutive
  | tiny
  | small
  | medium
  | large
  | huge
  | gargantuan
  | colossal
  deriving DecidableEq

namespace SizeCategory

instance : Inhabited SizeCategory := ⟨medium⟩

/-- All categories, smallest first. -/
def all : List SizeCategory :=
  [fine, diminutive, tiny, small, medium, large, huge, gargantuan, colossal]

def name : SizeCategory → String
  | fine => "FINE"
  | diminutive => "DIMINUTIVE"
  | tiny => "TINY"
  | small => "SMALL"
  | medium => "MEDIUM"
  | large => "LARGE"
  | huge => "HUGE"
  | gargantuan => "GARGANTUAN"
  | colossal => "COLOSSAL"

/-- The number of steps above medium. -/
def steps : SizeCategory → Int
  | fine => -4
  | diminutive => -3
  | tiny => -2
  | small => -1
  | medium => 0
  | large => 1
  | huge => 2
  | gargantuan => 3
  | colossal => 4

/-- The category so many steps above medium; beyond either end it is the last
one there. -/
def ofSteps (steps : Int) : SizeCategory :=
  if steps ≤ -4 then fine
  else if steps = -3 then diminutive
  else if steps = -2 then tiny
  else if steps = -1 then small
  else if steps = 0 then medium
  else if steps = 1 then large
  else if steps = 2 then huge
  else if steps = 3 then gargantuan
  else colossal

/-- The modifier to armor class and attack rolls. -/
def attackModifier : SizeCategory → Float
  | fine => 8
  | diminutive => 4
  | tiny => 2
  | small => 1
  | medium => 0
  | large => -1
  | huge => -2
  | gargantuan => -4
  | colossal => -8

/-- The modifier to grapple and other special attacks. -/
def specialModifier (category : SizeCategory) : Float :=
  Float.ofInt category.steps * 4

def toJson (category : SizeCategory) : Json := .str category.name

def ofJson? : Json → Option SizeCategory := Json.choice? all name

end SizeCategory

end CharacterSheet
