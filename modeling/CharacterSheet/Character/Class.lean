import CharacterSheet.Change.Contextual
import CharacterSheet.Change.Special
import CharacterSheet.Numeric.Rounding

/-!
# Features and classes

Features bring changes to a character.  A class has features that come with
its levels, and progressions for base attack and saving throws.
-/

namespace CharacterSheet

/-- How base attack grows with the level in a class. -/
inductive AttackProgression where
  | good
  | average
  | poor
  deriving DecidableEq

namespace AttackProgression

instance : Inhabited AttackProgression := ⟨average⟩

def all : List AttackProgression := [good, average, poor]

def name : AttackProgression → String
  | good => "GOOD"
  | average => "AVERAGE"
  | poor => "POOR"

/-- The base attack bonus at a level: the level itself, three quarters or half
of it, rounded down. -/
def atLevel (progression : AttackProgression) (level : Nat) : Float :=
  let level := Float.ofNat level
  match progression with
  | good => level
  | average => Numeric.floor (level * 3 / 4)
  | poor => Numeric.floor (level / 2)

def toJson (progression : AttackProgression) : Json := .str progression.name

def ofJson? : Json → Option AttackProgression := Json.choice? all name

end AttackProgression

/-- How a saving throw grows with the level in a class. -/
inductive SaveProgression where
  | good
  | poor
  deriving DecidableEq

namespace SaveProgression

instance : Inhabited SaveProgression := ⟨poor⟩

def all : List SaveProgression := [good, poor]

def name : SaveProgression → String
  | good => "GOOD"
  | poor => "POOR"

/-- The base save at a level: half of the level and two more, or a third of
it, rounded down. -/
def atLevel (progression : SaveProgression) (level : Nat) : Float :=
  let level := Float.ofNat level
  match progression with
  | good => 2 + Numeric.floor (level / 2)
  | poor => Numeric.floor (level / 3)

def toJson (progression : SaveProgression) : Json := .str progression.name

def ofJson? : Json → Option SaveProgression := Json.choice? all name

end SaveProgression

/-- The progressions of the three saving throws. -/
structure SaveProgressions where
  fortitude : SaveProgression
  reflex : SaveProgression
  will : SaveProgression
  deriving DecidableEq, Inhabited

namespace SaveProgressions

/-- The progression of a saving throw. -/
def get (progressions : SaveProgressions) : Save → SaveProgression
  | .fortitude => progressions.fortitude
  | .reflex => progressions.reflex
  | .will => progressions.will

def toJson (progressions : SaveProgressions) : Json :=
  .object [("fortitude", progressions.fortitude.toJson), ("reflex", progressions.reflex.toJson),
    ("will", progressions.will.toJson)]

def ofJson? : Json → Option SaveProgressions :=
  Json.record? fun members => do
    let fortitude ← members.defaulted "fortitude" SaveProgression.ofJson? .poor
    let reflex ← members.defaulted "reflex" SaveProgression.ofJson? .poor
    let will ← members.defaulted "will" SaveProgression.ofJson? .poor
    return ⟨fortitude, reflex, will⟩

end SaveProgressions

/-- A feat, or a feature of a class or race. -/
structure Feature where
  id : String
  name : String
  changes : List Change
  special : List SpecialChange
  contextual : List ContextualChange
  deriving BEq

namespace Feature

/-- A feature that brings nothing yet. -/
def of (id name : String) : Feature := ⟨id, name, [], [], []⟩

def members (feature : Feature) : Members :=
  [("uniqueId", .str feature.id), ("name", .str feature.name),
    ("changes", .ofList Change.toJson feature.changes),
    ("specialChanges", .ofList SpecialChange.toJson feature.special)] ++
    Members.ofItems "contextualChanges" ContextualChange.toJson feature.contextual

def ofMembers? (members : Members) : Option Feature := do
  let id ← members.required "uniqueId" Json.string?
  let name ← members.required "name" Json.string?
  let changes ← members.listed "changes" Change.ofJson?
  let special ← members.listed "specialChanges" SpecialChange.ofJson?
  let contextual ← members.listed "contextualChanges" ContextualChange.ofJson?
  return ⟨id, name, changes, special, contextual⟩

def toJson (feature : Feature) : Json :=
  .object feature.members

def ofJson? : Json → Option Feature := Json.record? ofMembers?

end Feature

/-- A feature that comes with a level in a class. -/
structure ClassFeature where
  level : Nat
  feature : Feature
  deriving BEq

namespace ClassFeature

def toJson (classFeature : ClassFeature) : Json :=
  .object (("level", .ofNat classFeature.level) :: classFeature.feature.members)

def ofJson? : Json → Option ClassFeature :=
  Json.record? fun members => do
    let level ← members.required "level" Json.count32?
    let feature ← Feature.ofMembers? members
    return ⟨level, feature⟩

end ClassFeature

/-- The levels that a character has in a class. -/
structure CharacterClass where
  id : String
  name : String
  level : Nat
  attack : AttackProgression
  saves : SaveProgressions
  /-- The hit points rolled, one entry for each level. -/
  hitDice : List Float
  features : List ClassFeature
  deriving BEq

namespace CharacterClass

/-- A class without features. -/
def of (id name : String) (level : Nat) : CharacterClass :=
  ⟨id, name, level, .average, ⟨.poor, .poor, .poor⟩, [], []⟩

/-- The features that come with the levels reached. -/
def activeFeatures (taken : CharacterClass) : List Feature :=
  (taken.features.filter fun entry => entry.level ≤ taken.level).map (·.feature)

def toJson (taken : CharacterClass) : Json :=
  .object [("uniqueId", .str taken.id), ("name", .str taken.name), ("level", .ofNat taken.level),
    ("babProgression", taken.attack.toJson), ("saves", taken.saves.toJson),
    ("hitDieRolls", .ofList .ofFloat taken.hitDice),
    ("classFeatures", .ofList ClassFeature.toJson taken.features)]

def ofJson? : Json → Option CharacterClass :=
  Json.record? fun members => do
    let id ← members.required "uniqueId" Json.string?
    let name ← members.required "name" Json.string?
    let level ← members.required "level" Json.count32?
    let attack ← members.defaulted "babProgression" AttackProgression.ofJson? .average
    let saves ← members.defaulted "saves" SaveProgressions.ofJson? ⟨.poor, .poor, .poor⟩
    let hitDice ← members.listed "hitDieRolls" Json.float?
    let features ← members.listed "classFeatures" ClassFeature.ofJson?
    return ⟨id, name, level, attack, saves, hitDice, features⟩

end CharacterClass

end CharacterSheet
