import CharacterSheet.Json.Basic

/-!
# Phases of the calculation

A sheet is calculated in thirteen phases.  Each publishes values that later
ones read, so some of them require others to have run.
-/

namespace CharacterSheet

/-- A phase of the calculation. -/
inductive Phase where
  | size
  | abilityScores
  | initiative
  | speed
  | hitPoints
  | baseAttackBonus
  | savingThrows
  | armorClass
  | skills
  | customVariables
  | spellTracks
  | resources
  | attacks
  deriving DecidableEq, Inhabited

namespace Phase

/-- All phases in their default order. -/
def all : List Phase :=
  [size, abilityScores, initiative, speed, hitPoints, baseAttackBonus, savingThrows, armorClass,
    skills, customVariables, spellTracks, resources, attacks]

def name : Phase → String
  | size => "size"
  | abilityScores => "abilityScores"
  | initiative => "initiative"
  | speed => "speed"
  | hitPoints => "hitPoints"
  | baseAttackBonus => "baseAttackBonus"
  | savingThrows => "savingThrows"
  | armorClass => "armorClass"
  | skills => "skills"
  | customVariables => "customVariables"
  | spellTracks => "cge"
  | resources => "resources"
  | attacks => "attacks"

def ofName? (text : String) : Option Phase :=
  all.find? fun phase => phase.name = text

/-- The phases whose values the phase reads. -/
def requires : Phase → List Phase
  | size | abilityScores | speed | customVariables => []
  | initiative | hitPoints | savingThrows | skills => [abilityScores]
  | baseAttackBonus | armorClass => [size, abilityScores]
  | spellTracks | resources => [customVariables]
  | attacks => [abilityScores, baseAttackBonus]

def toJson (phase : Phase) : Json := .str phase.name

def ofJson? : Json → Option Phase
  | .str text => ofName? text
  | _ => none

end Phase

end CharacterSheet
