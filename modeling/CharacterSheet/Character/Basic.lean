import CharacterSheet.Character.Item
import CharacterSheet.Character.Size
import CharacterSheet.Character.Skill
import CharacterSheet.Entity.Basic

/-!
# Characters

A character is everything that a sheet is calculated from: ability scores,
classes, race, items, buffs, feats, skills, the entities applied to it, and
what play has left of its hit points, spell slots and resources.
-/

namespace CharacterSheet

/-- The score of an ability and what reduces it. -/
structure AbilityScore where
  base : Float
  drain : Float
  damage : Float
  penalty : Float
  deriving DecidableEq

namespace AbilityScore

/-- A score that nothing reduces. -/
def of (base : Float) : AbilityScore := ⟨base, 0, 0, 0⟩

/-- The score of an ability that the character says nothing of. -/
def default : AbilityScore := of 10

def toJson (score : AbilityScore) : Json :=
  .object [("baseScore", .ofFloat score.base), ("drain", .ofFloat score.drain),
    ("damage", .ofFloat score.damage), ("penalty", .ofFloat score.penalty)]

def ofJson? : Json → Option AbilityScore :=
  Json.record? fun members => do
    let base ← members.required "baseScore" Json.float?
    let drain ← members.defaulted "drain" Json.float? 0
    let damage ← members.defaulted "damage" Json.float? 0
    let penalty ← members.defaulted "penalty" Json.float? 0
    return ⟨base, drain, damage, penalty⟩

end AbilityScore

/-- The race of a character. -/
structure Race where
  id : String
  name : String
  size : SizeCategory
  speeds : SortedMap SpeedMode Float
  naturalArmor : Float
  changes : List Change
  features : List Feature
  deriving BEq

namespace Race

def toJson (race : Race) : Json :=
  .object [("uniqueId", .str race.id), ("name", .str race.name), ("size", race.size.toJson),
    ("speeds", Json.ofMapBy SpeedMode.name .ofFloat race.speeds),
    ("naturalArmor", .ofFloat race.naturalArmor),
    ("changes", .ofList Change.toJson race.changes),
    ("racialFeatures", .ofList Feature.toJson race.features)]

def ofJson? : Json → Option Race :=
  Json.record? fun members => do
    let id ← members.required "uniqueId" Json.string?
    let name ← members.required "name" Json.string?
    let size ← members.defaulted "size" SizeCategory.ofJson? .medium
    let speeds ←
      members.defaulted "speeds" (Json.mapBy? SpeedMode.ofName? Json.float?) SortedMap.empty
    let naturalArmor ← members.defaulted "naturalArmor" Json.float? 0
    let changes ← members.listed "changes" Change.ofJson?
    let features ← members.listed "racialFeatures" Feature.ofJson?
    return ⟨id, name, size, speeds, naturalArmor, changes, features⟩

end Race

/-- What play has left of the hit points. -/
structure HitPointState where
  damage : Float
  /-- The current hit points, if they are set by hand. -/
  current : Option Float
  deriving DecidableEq

namespace HitPointState

/-- No damage. -/
def unhurt : HitPointState := ⟨0, none⟩

def toJson (state : HitPointState) : Json :=
  .object (("damage", .ofFloat state.damage) ::
    Members.ofOption "customCurrentHp" .ofFloat state.current)

def ofJson? : Json → Option HitPointState :=
  Json.record? fun members => do
    let damage ← members.defaulted "damage" Json.float? 0
    let current ← members.nullable "customCurrentHp" Json.float?
    return ⟨damage, current⟩

end HitPointState

/-- What play has left of spell slots, by spell level. -/
structure SlotState where
  remaining : SortedMap Nat Float
  deriving BEq, Inhabited

namespace SlotState

/-- A spell level written as the name of a member: decimal digits without
needless zeros. -/
def level? (text : String) : Option Nat :=
  match Numeric.readNatBelow? (Numeric.powerOfTwo 32) text.toList with
  | some level => if toString level = text then some level else none
  | none => none

def toJson (state : SlotState) : Json :=
  .object [("slotCurrentValues", Json.ofMapBy toString .ofFloat state.remaining)]

def ofJson? : Json → Option SlotState :=
  Json.record? fun members => do
    let remaining ←
      members.defaulted "slotCurrentValues" (Json.mapBy? level? Json.float?) SortedMap.empty
    return ⟨remaining⟩

end SlotState

/-- The current value of a resource. -/
structure ResourceState where
  current : Float
  deriving DecidableEq

namespace ResourceState

def toJson (state : ResourceState) : Json :=
  .object [("currentValue", .ofFloat state.current)]

def ofJson? : Json → Option ResourceState :=
  Json.record? fun members => do
    let current ← members.required "currentValue" Json.float?
    return ⟨current⟩

end ResourceState

/-- Everything that a sheet is calculated from. -/
structure Character where
  name : String
  abilityScores : SortedMap Ability AbilityScore
  classes : List CharacterClass
  race : Option Race
  items : List Item
  buffs : List Buff
  feats : List Feature
  changes : List Change
  special : List SpecialChange
  skills : List SkillDefinition
  skillRanks : SortedMap String SkillRanks
  hitPoints : HitPointState
  slots : SortedMap String SlotState
  resources : SortedMap String ResourceState
  entities : List Entity
  deriving BEq

namespace Character

/-- A character that has nothing but a name. -/
def of (name : String) : Character :=
  ⟨name, SortedMap.empty, [], none, [], [], [], [], [], [], SortedMap.empty,
    HitPointState.unhurt, SortedMap.empty, SortedMap.empty, []⟩

/-- The score of an ability. -/
def ability (character : Character) (ability : Ability) : AbilityScore :=
  (character.abilityScores.find? ability).getD AbilityScore.default

/-- Set the score of an ability. -/
def setAbility (character : Character) (ability : Ability) (score : AbilityScore) : Character :=
  { character with abilityScores := character.abilityScores.insert ability score }

/-- The level: the sum of the levels in all classes. -/
def level (character : Character) : Nat :=
  character.classes.foldl (fun total taken => total + taken.level) 0

/-- The level in a class, zero if it was never taken. -/
def classLevel (character : Character) (id : String) : Nat :=
  (character.classes.filter (·.id == id)).foldl (fun total taken => total + taken.level) 0

/-- The size by race. -/
def size (character : Character) : SizeCategory :=
  character.race.elim .medium (·.size)

/-- The first equipped item of a kind, with the data of the kind. -/
def equipped? {α : Type} (character : Character) (pick : ItemKind → Option α) :
    Option (Item × α) :=
  (character.items.filter (·.equipped)).findSome? fun item => (pick item.kind).map (item, ·)

/-- The ranks bought in a skill. -/
def ranks (character : Character) (id : String) : SkillRanks :=
  (character.skillRanks.find? id).getD SkillRanks.zero

def toJson (character : Character) : Json :=
  .object ([("name", .str character.name),
      ("abilityScores", Json.ofMapBy Ability.name AbilityScore.toJson character.abilityScores),
      ("classes", .ofList CharacterClass.toJson character.classes)] ++
    Members.ofOption "race" Race.toJson character.race ++
    [("items", .ofList Item.toJson character.items),
      ("buffs", .ofList Buff.toJson character.buffs),
      ("feats", .ofList Feature.toJson character.feats),
      ("changes", .ofList Change.toJson character.changes),
      ("specialChanges", .ofList SpecialChange.toJson character.special),
      ("skills", .ofList SkillDefinition.toJson character.skills),
      ("skillData", .ofMap SkillRanks.toJson character.skillRanks),
      ("hitPoints", character.hitPoints.toJson),
      ("cgeState", .ofMap SlotState.toJson character.slots),
      ("resourceCurrentValues", .ofMap ResourceState.toJson character.resources),
      ("entities", .ofList Entity.toJson character.entities)])

def ofJson? : Json → Option Character :=
  Json.record? fun members => do
    let name ← members.required "name" Json.string?
    let abilityScores ←
      members.defaulted "abilityScores" (Json.mapBy? Ability.ofName? AbilityScore.ofJson?)
        SortedMap.empty
    let classes ← members.listed "classes" CharacterClass.ofJson?
    let race ← members.nullable "race" Race.ofJson?
    let items ← members.listed "items" Item.ofJson?
    let buffs ← members.listed "buffs" Buff.ofJson?
    let feats ← members.listed "feats" Feature.ofJson?
    let changes ← members.listed "changes" Change.ofJson?
    let special ← members.listed "specialChanges" SpecialChange.ofJson?
    let skills ← members.listed "skills" SkillDefinition.ofJson?
    let skillRanks ←
      members.defaulted "skillData" (Json.map? SkillRanks.ofJson?) SortedMap.empty
    let hitPoints ←
      members.defaulted "hitPoints" HitPointState.ofJson? HitPointState.unhurt
    let slots ← members.defaulted "cgeState" (Json.map? SlotState.ofJson?) SortedMap.empty
    let resources ←
      members.defaulted "resourceCurrentValues" (Json.map? ResourceState.ofJson?) SortedMap.empty
    let entities ← members.listed "entities" Entity.ofJson?
    return ⟨name, abilityScores, classes, race, items, buffs, feats, changes, special, skills,
      skillRanks, hitPoints, slots, resources, entities⟩

end Character

end CharacterSheet
