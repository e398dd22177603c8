import CharacterSheet.Json.Record

/-!
# What statistics are about

The fixed vocabulary of a character: abilities, saving throws, modes of
movement and kinds of attack.  Each has a name, under which it stands in data
and in the keys of published values.
-/

namespace CharacterSheet

/-- One of the six abilities. -/
inductive Ability where
  | strength
  | dexterity
  | constitution
  | intelligence
  | wisdom
  | charisma
  deriving DecidableEq, Inhabited

namespace Ability

/-- All abilities in their usual order. -/
def all : List Ability := [strength, dexterity, constitution, intelligence, wisdom, charisma]

def name : Ability → String
  | strength => "strength"
  | dexterity => "dexterity"
  | constitution => "constitution"
  | intelligence => "intelligence"
  | wisdom => "wisdom"
  | charisma => "charisma"

/-- The name in breakdowns. -/
def label : Ability → String
  | strength => "Strength"
  | dexterity => "Dexterity"
  | constitution => "Constitution"
  | intelligence => "Intelligence"
  | wisdom => "Wisdom"
  | charisma => "Charisma"

/-- How the modifier is called in breakdowns. -/
def modifierLabel (ability : Ability) : String :=
  ability.label ++ " modifier"

/-- The key of the score. -/
def scoreKey (ability : Ability) : String :=
  "ability." ++ ability.name ++ ".score"

/-- The key of the modifier. -/
def modifierKey (ability : Ability) : String :=
  "ability." ++ ability.name ++ ".modifier"

def ofName? (text : String) : Option Ability :=
  all.find? fun ability => ability.name = text

def toJson (ability : Ability) : Json := .str ability.name

def ofJson? : Json → Option Ability := Json.choice? all name

instance : OrderedKey Ability :=
  OrderedKey.ofRank Ability.ctorIdx fun a b => by cases a <;> cases b <;> decide

end Ability

/-- One of the three saving throws. -/
inductive Save where
  | fortitude
  | reflex
  | will
  deriving DecidableEq, Inhabited

namespace Save

def all : List Save := [fortitude, reflex, will]

def name : Save → String
  | fortitude => "fortitude"
  | reflex => "reflex"
  | will => "will"

/-- The name in keys. -/
def short : Save → String
  | fortitude => "fort"
  | reflex => "ref"
  | will => "will"

/-- The ability whose modifier counts for the saving throw. -/
def ability : Save → Ability
  | fortitude => .constitution
  | reflex => .dexterity
  | will => .wisdom

def ofJson? : Json → Option Save := Json.choice? all name

instance : OrderedKey Save :=
  OrderedKey.ofRank Save.ctorIdx fun a b => by cases a <;> cases b <;> decide

end Save

/-- The saving throws that a change applies to. -/
inductive SaveTarget where
  | one (save : Save)
  | all
  deriving DecidableEq, Inhabited

namespace SaveTarget

/-- The possible targets. -/
def options : List SaveTarget := [one .fortitude, one .reflex, one .will, all]

def name : SaveTarget → String
  | one .fortitude => "FORTITUDE"
  | one .reflex => "REFLEX"
  | one .will => "WILL"
  | all => "ALL"

/-- Whether a saving throw is meant. -/
def includes (target : SaveTarget) (save : Save) : Bool :=
  target = all || target = one save

def toJson (target : SaveTarget) : Json := .str target.name

def ofJson? : Json → Option SaveTarget := Json.choice? options name

end SaveTarget

/-- A way to move. -/
inductive SpeedMode where
  | land
  | fly
  | swim
  | climb
  | burrow
  deriving DecidableEq, Inhabited

namespace SpeedMode

def all : List SpeedMode := [land, fly, swim, climb, burrow]

def name : SpeedMode → String
  | land => "land"
  | fly => "fly"
  | swim => "swim"
  | climb => "climb"
  | burrow => "burrow"

/-- The first part of the keys of a speed. -/
def keyStart : SpeedMode → String
  | land => "speed"
  | mode => "speed." ++ mode.name

def ofName? (text : String) : Option SpeedMode :=
  all.find? fun mode => mode.name = text

def toJson (mode : SpeedMode) : Json := .str mode.name

def ofJson? : Json → Option SpeedMode := Json.choice? all name

instance : OrderedKey SpeedMode :=
  OrderedKey.ofRank SpeedMode.ctorIdx fun a b => by cases a <;> cases b <;> decide

end SpeedMode

/-- The attacks that a change applies to. -/
inductive AttackKind where
  | melee
  | ranged
  | all
  deriving DecidableEq, Inhabited

namespace AttackKind

/-- The possible kinds. -/
def options : List AttackKind := [melee, ranged, all]

def name : AttackKind → String
  | melee => "melee"
  | ranged => "ranged"
  | all => "all"

/-- Whether attacks of another kind are meant. -/
def includes (kind other : AttackKind) : Bool :=
  kind = all || kind = other

def toJson (kind : AttackKind) : Json := .str kind.name

def ofJson? : Json → Option AttackKind := Json.choice? options name

end AttackKind

end CharacterSheet
