import CharacterSheet.Config
import CharacterSheet.Statistic.Ability
import CharacterSheet.Statistic.Body
import CharacterSheet.Statistic.Combat
import CharacterSheet.Statistic.Defense
import CharacterSheet.Statistic.Resource
import CharacterSheet.Statistic.Skill
import CharacterSheet.Statistic.Spell
import CharacterSheet.Statistic.Variable
import CharacterSheet.Suppression.Calculation

/-!
# The character sheet

`Sheet.calculate` turns a character into a sheet.  It publishes the levels,
leaves out suppressed entities, compiles the changes of what remains active,
and runs the phases in the configured order.  The values that a phase
publishes are there for all later phases.

Calculating never fails.  An order of phases that breaks the rules is run as it
stands, a value published again keeps its first form, and the sheet lists
warnings about both.
-/

namespace CharacterSheet

/-- What the phases calculate. -/
structure Statistics where
  abilities : SortedMap Ability AbilityStat
  size : SizeStat
  initiative : Stat
  speeds : SortedMap SpeedMode Stat
  hitPoints : HitPointStat
  baseAttackBonus : BaseAttackStat
  savingThrows : SortedMap Save SaveStat
  armorClass : ArmorClass
  skills : List SkillGroup
  customVariables : List VariableStat
  spells : SortedMap String SpellStat
  resources : SortedMap String ResourceStat
  attacks : List AttackStat

namespace Statistics

/-- The statistics before any phase has run. -/
def empty : Statistics where
  abilities := SortedMap.empty
  size := SizeStat.empty
  initiative := Stat.empty
  speeds := SortedMap.empty
  hitPoints := HitPointStat.empty
  baseAttackBonus := BaseAttackStat.empty
  savingThrows := SortedMap.empty
  armorClass := ArmorClass.empty
  skills := []
  customVariables := []
  spells := SortedMap.empty
  resources := SortedMap.empty
  attacks := []

def members (statistics : Statistics) : Members :=
  [("abilities", Json.ofMapBy Ability.name AbilityStat.toJson statistics.abilities),
    ("size", statistics.size.toJson),
    ("initiative", statistics.initiative.toJson),
    ("speeds", Json.ofMapBy SpeedMode.name Stat.toJson statistics.speeds),
    ("hitPoints", statistics.hitPoints.toJson),
    ("baseAttackBonus", statistics.baseAttackBonus.toJson),
    ("savingThrows", Json.ofMapBy Save.name SaveStat.toJson statistics.savingThrows),
    ("armorClass", statistics.armorClass.toJson),
    ("skills", .ofList SkillGroup.toJson statistics.skills),
    ("customVariables", .ofList VariableStat.toJson statistics.customVariables),
    ("cge", .ofMap SpellStat.toJson statistics.spells),
    ("resources", .ofMap ResourceStat.toJson statistics.resources),
    ("attacks", .ofList AttackStat.toJson statistics.attacks)]

end Statistics

/-- A calculation under way: the statistics and published values so far. -/
structure Progress where
  statistics : Statistics
  index : Index
  warnings : List SheetWarning

namespace Progress

/-- Publish the values of an update; a conflict becomes a warning. -/
def publish (progress : Progress) (update : Index.Update) : Progress :=
  let (index, conflicts) := progress.index.apply update
  { progress with
    index
    warnings := progress.warnings ++ conflicts.map SheetWarning.indexConflict }

/-- Take up the result of a phase. -/
def absorb {α : Type} (progress : Progress) (result : PhaseResult α)
    (store : Statistics → α → Statistics) : Progress :=
  publish
    { progress with
      statistics := store progress.statistics result.value
      warnings := progress.warnings ++ result.warnings }
    result.update

/-- Run a phase. -/
def run (calculation : Calculation) (progress : Progress) : Phase → Progress
  | .size =>
    progress.absorb (calculation.size progress.index) ({ · with size := · })
  | .abilityScores =>
    progress.absorb (calculation.abilities progress.index) ({ · with abilities := · })
  | .initiative =>
    progress.absorb (calculation.initiative progress.index) ({ · with initiative := · })
  | .speed =>
    progress.absorb (calculation.speeds progress.index) ({ · with speeds := · })
  | .hitPoints =>
    progress.absorb (calculation.hitPoints progress.index) ({ · with hitPoints := · })
  | .baseAttackBonus =>
    progress.absorb (calculation.baseAttackBonus progress.index) ({ · with baseAttackBonus := · })
  | .savingThrows =>
    progress.absorb (calculation.savingThrows progress.index) ({ · with savingThrows := · })
  | .armorClass =>
    progress.absorb (calculation.armorClass progress.index) ({ · with armorClass := · })
  | .skills =>
    progress.absorb (calculation.skills progress.index) ({ · with skills := · })
  | .customVariables =>
    progress.absorb (calculation.customVariables progress.index) ({ · with customVariables := · })
  | .spellTracks =>
    progress.absorb (calculation.spells progress.index) ({ · with spells := · })
  | .resources =>
    progress.absorb (calculation.resources progress.index) ({ · with resources := · })
  | .attacks =>
    progress.absorb (calculation.attacks progress.index) ({ · with attacks := · })

/-- Run some phases in order. -/
def runAll (calculation : Calculation) (progress : Progress) (phases : List Phase) : Progress :=
  phases.foldl (run calculation) progress

end Progress

/-- A calculated character sheet. -/
structure Sheet where
  statistics : Statistics
  /-- The definitions that came with content. -/
  special : List SpecialChange
  suppressed : Suppression.Outcome
  /-- All published values. -/
  index : Index
  warnings : List SheetWarning

namespace Sheet

/-- The values published before any phase: the level and those in classes. -/
def levelValues (character : Character) : Index.Update :=
  let level := Float.ofNat character.level
  .ofList
    ([("level", level), ("casterLevel", level), ("hd.base", level), ("hd.total", level)] ++
      character.classes.map fun taken =>
        ("class." ++ taken.id ++ ".level", Float.ofNat taken.level))

/-- The warning about an order of phases that breaks the rules. -/
def orderWarnings (config : Config) : List SheetWarning :=
  match config.validate with
  | .ok () => []
  | .error problem => [.ofError problem]

/-- The calculation before any phase. -/
def start (character : Character) (config : Config) : Progress :=
  Progress.publish ⟨Statistics.empty, Index.empty, orderWarnings config⟩ (levelValues character)

/-- Calculate the sheet of a character. -/
def calculate (character : Character) (config : Config) : Sheet :=
  let started := start character config
  let suppressed := Suppression.calculate character.entities started.index .applied
  let active := Suppression.remaining character.entities suppressed
  let compiled := Compilation.ofCharacter character active
  let calculation : Calculation := ⟨character, compiled, config.bonusTypes, active⟩
  let finished := Progress.runAll calculation
    { started with warnings := started.warnings ++ compiled.warnings } config.phaseOrder
  ⟨finished.statistics, compiled.special, suppressed, finished.index, finished.warnings⟩

def members (sheet : Sheet) : Members :=
  sheet.statistics.members ++
    [("specialChanges", .ofList SpecialChange.toJson sheet.special),
      ("suppressed", .ofMap Suppression.Record.toJson sheet.suppressed),
      ("substitutionValues", .ofMap .ofFloat sheet.index.values),
      ("warnings", .ofList SheetWarning.toJson sheet.warnings)]

def toJson (sheet : Sheet) : Json :=
  .object sheet.members

end Sheet

end CharacterSheet
