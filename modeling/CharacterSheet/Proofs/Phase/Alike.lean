import CharacterSheet.Proofs.Statistic.VariableOrder
import CharacterSheet.Sheet

/-!
# Calculations that no phase tells apart

A phase looks at a character through a few readings only: it adds up levels,
takes the hit dice that are due, picks out what is worn.  It looks at compiled
changes through the sources they give, the variables and ways of moving they
name, and the names of contextual changes.  Two calculations are alike if all
these readings agree, whatever else they are made from.  Then every phase has
the same result for both.
-/

namespace CharacterSheet

namespace Character

/-- The equipped items of a kind: of each its id, its name and the data of the
kind. -/
def equipment {α : Type} (character : Character) (pick : ItemKind → Option α) :
    List (String × String × α) :=
  (character.items.filter (·.equipped)).filterMap fun item =>
    (pick item.kind).map (item.id, item.name, ·)

theorem head?_equipment {α : Type} (character : Character) (pick : ItemKind → Option α) :
    (character.equipment pick).head? =
      (character.equipped? pick).map fun found => (found.1.id, found.1.name, found.2) := by
  rw [equipment, List.head?_filterMap, equipped?, List.map_findSome?]
  congr 1
  funext item
  rw [Function.comp_apply, Option.map_map]
  rfl

/-- The natural armor by race. -/
def naturalArmor (character : Character) : Float :=
  character.race.elim 0 (·.naturalArmor)

/-- Two characters on which all that phases look up agrees. -/
structure Alike (first second : Character) : Prop where
  ability : first.ability = second.ability
  size : first.size = second.size
  naturalArmor : first.naturalArmor = second.naturalArmor
  level : first.level = second.level
  classLevel : first.classLevel = second.classLevel
  hitDice : first.classes.flatMap Calculation.hitDice = second.classes.flatMap Calculation.hitDice
  classAttacks : Calculation.classAttacks first = Calculation.classAttacks second
  classSaves : Calculation.classSaves first = Calculation.classSaves second
  equipment : ∀ {α : Type} (pick : ItemKind → Option α),
    first.equipment pick = second.equipment pick
  skills : first.skills = second.skills
  ranks : first.ranks = second.ranks
  hitPoints : first.hitPoints = second.hitPoints
  slots : first.slots = second.slots
  resources : first.resources = second.resources

/-- The changes written on a character and its entities are looked up only
before the phases. -/
theorem alike_with (character : Character) (changes : List Change) (entities : List Entity) :
    Alike { character with changes, entities } character :=
  ⟨rfl, rfl, rfl, rfl, rfl, rfl, rfl, rfl, fun _ => rfl, rfl, rfl, rfl, rfl, rfl⟩

end Character

namespace Calculation

/-- Armor class depends on what is worn by its id, its name and its data. -/
theorem wornSources_eq (character : Character) :
    wornSources character =
      ((character.equipment ItemKind.armor?).head?.toList.map fun found =>
          Source.of (found.2.2.bonus + found.2.2.enhancement) BonusType.armor found.2.1 found.1) ++
        ((character.equipment ItemKind.shield?).head?.toList.map fun found =>
          Source.of (found.2.2.bonus + found.2.2.enhancement) BonusType.shield found.2.1
            found.1) := by
  rw [Character.head?_equipment, Character.head?_equipment, Option.toList_map, Option.toList_map,
    List.map_map, List.map_map]
  rfl

theorem armorDexterity_eq (character : Character) (index : Index) :
    armorDexterity character index =
      match (character.equipment ItemKind.armor?).head?.bind (·.2.2.maxDexterity) with
      | some limit => Numeric.minimum (index.value Ability.dexterity.modifierKey) limit
      | none => index.value Ability.dexterity.modifierKey := by
  rw [Character.head?_equipment, Option.bind_map]
  rfl

/-- Attacks depend on weapons in the same way. -/
theorem attacks_eq (calculation : Calculation) (index : Index) :
    calculation.attacks index =
      .of ((calculation.character.equipment ItemKind.weapon?).map fun found =>
        calculation.attackStat index (Item.of found.1 found.2.1) found.2.2) [] := by
  have each : (fun item : Item => item.kind.weapon?.map (calculation.attackStat index item)) =
      fun item => (item.kind.weapon?.map (item.id, item.name, ·)).map fun found =>
        calculation.attackStat index (Item.of found.1 found.2.1) found.2.2 := by
    funext item
    rw [Option.map_map]
    rfl
  rw [attacks, each, ← List.map_filterMap]
  rfl

/-- The dependencies between custom variables follow from what is declared and
from the formulas. -/
theorem dependencies_congr {first second : Calculation}
    (declarations : first.declarations = second.declarations)
    (formulas : first.formulasOf = second.formulasOf) :
    first.dependencies = second.dependencies := by
  have required : first.requirementsOf = second.requirementsOf := by
    funext definition
    rw [requirementsOf, requirementsOf, formulas]
  rw [dependencies, dependencies, declarations, required]

/-- Two calculations that every phase looks at in the same way. -/
structure Alike (first second : Calculation) : Prop where
  character : first.character.Alike second.character
  table : first.table = second.table
  special : first.compiled.special = second.compiled.special
  sources : first.sources = second.sources
  contextualSources : first.contextualSources = second.contextualSources
  mandatory : first.mandatory = second.mandatory
  offered : first.offered = second.offered
  baseSpeeds : first.baseSpeeds = second.baseSpeeds
  evaluationOrder : evaluationOrder first.dependencies = evaluationOrder second.dependencies
  sortedDeclarations : first.sortedDeclarations = second.sortedDeclarations

namespace Alike

variable {first second : Calculation} (alike : Alike first second)

include alike

theorem resolve : first.resolve = second.resolve := by
  funext sources
  rw [Calculation.resolve, Calculation.resolve, alike.table]

theorem sourcesOf : first.sourcesOf = second.sourcesOf := by
  funext index target
  rw [Calculation.sourcesOf, Calculation.sourcesOf, alike.sources]

theorem size : first.size = second.size := by
  funext index
  rw [Calculation.size, Calculation.size, alike.resolve, alike.sourcesOf, alike.character.size]

theorem abilities : first.abilities = second.abilities := by
  have stat : first.abilityStat = second.abilityStat := by
    funext index ability
    rw [abilityStat, abilityStat, alike.resolve, alike.sourcesOf, alike.character.ability]
  funext index
  rw [Calculation.abilities, Calculation.abilities, stat]

theorem initiative : first.initiative = second.initiative := by
  funext index
  rw [Calculation.initiative, Calculation.initiative, alike.resolve, alike.sourcesOf]

theorem speeds : first.speeds = second.speeds := by
  funext index
  rw [Calculation.speeds, Calculation.speeds, alike.resolve, alike.sourcesOf, alike.baseSpeeds]

theorem hitPoints : first.hitPoints = second.hitPoints := by
  funext index
  rw [Calculation.hitPoints, Calculation.hitPoints, alike.resolve, alike.sourcesOf,
    alike.character.hitDice, alike.character.level, alike.character.hitPoints]

theorem baseAttackBonus : first.baseAttackBonus = second.baseAttackBonus := by
  have base : first.attackBase = second.attackBase := by
    funext index baseAttack ability sizeKey
    rw [attackBase, attackBase, alike.resolve]
  funext index
  rw [Calculation.baseAttackBonus, Calculation.baseAttackBonus, base, alike.resolve,
    alike.sourcesOf, alike.character.classAttacks]

theorem savingThrows : first.savingThrows = second.savingThrows := by
  have stat : first.saveStat = second.saveStat := by
    funext index save
    rw [saveStat, saveStat, alike.resolve, alike.sources, alike.character.classSaves]
  funext index
  rw [Calculation.savingThrows, Calculation.savingThrows, stat]

theorem armorClass : first.armorClass = second.armorClass := by
  have sources : first.armorClassSources = second.armorClassSources := by
    funext index natural
    rw [armorClassSources, armorClassSources, alike.sourcesOf, armorDexterity_eq,
      armorDexterity_eq, wornSources_eq, wornSources_eq]
    simp only [alike.character.equipment]
  have natural := alike.character.naturalArmor
  unfold Character.naturalArmor at natural
  funext index
  rw [Calculation.armorClass, Calculation.armorClass, sources, alike.resolve, alike.sourcesOf,
    alike.table, natural]

theorem skills : first.skills = second.skills := by
  have stat : first.skillStat = second.skillStat := by
    funext index parent skill
    rw [skillStat, skillStat, alike.resolve, alike.sources, alike.character.ranks]
  have group : first.skillGroup = second.skillGroup := by
    funext index definition
    cases definition <;> rw [skillGroup, skillGroup, stat]
  funext index
  rw [Calculation.skills, Calculation.skills, group, alike.character.skills]

theorem customVariables : first.customVariables = second.customVariables := by
  have stat : first.variableStat = second.variableStat := by
    funext index definition
    rw [variableStat, variableStat, alike.resolve, alike.sourcesOf]
  have inOrder : ∀ definitions index,
      first.evaluateInOrder index definitions = second.evaluateInOrder index definitions := by
    intro definitions
    induction definitions with
    | nil => exact fun _ => rfl
    | cons definition rest inductionHypothesis =>
      intro index
      rw [evaluateInOrder, evaluateInOrder, stat, inductionHypothesis]
  funext index
  rw [customVariables_eq, customVariables_eq, alike.sortedDeclarations, inOrder,
    alike.evaluationOrder]

theorem spells : first.spells = second.spells := by
  have stat : first.spellStat = second.spellStat := by
    funext index definition classLevel
    rw [spellStat, spellStat, alike.character.slots]
  funext index
  rw [Calculation.spells, Calculation.spells, Compilation.spellTracks, Compilation.spellTracks,
    alike.special, alike.character.classLevel, stat]

theorem resources : first.resources = second.resources := by
  have property : first.resourceProperty = second.resourceProperty := by
    funext index resource property formula
    rw [resourceProperty, resourceProperty, alike.resolve, alike.sourcesOf]
  have stat : first.resourceStat = second.resourceStat := by
    funext index resource
    rw [resourceStat, resourceStat, property, alike.character.resources]
  funext index
  rw [Calculation.resources, Calculation.resources, Compilation.resources, Compilation.resources,
    alike.special, stat]

theorem attacks : first.attacks = second.attacks := by
  have stat : first.attackStat = second.attackStat := by
    funext index item weapon
    rw [attackStat, attackStat, alike.resolve, alike.sources, alike.contextualSources,
      alike.mandatory, alike.offered]
  funext index
  rw [attacks_eq, attacks_eq, stat, alike.character.equipment]

end Alike

end Calculation

namespace Progress

/-- Calculations that are alike run alike. -/
theorem run_congr {first second : Calculation} (alike : first.Alike second) :
    run first = run second := by
  funext progress phase
  cases phase with
  | size => rw [run, run, alike.size]
  | abilityScores => rw [run, run, alike.abilities]
  | initiative => rw [run, run, alike.initiative]
  | speed => rw [run, run, alike.speeds]
  | hitPoints => rw [run, run, alike.hitPoints]
  | baseAttackBonus => rw [run, run, alike.baseAttackBonus]
  | savingThrows => rw [run, run, alike.savingThrows]
  | armorClass => rw [run, run, alike.armorClass]
  | skills => rw [run, run, alike.skills]
  | customVariables => rw [run, run, alike.customVariables]
  | spellTracks => rw [run, run, alike.spells]
  | resources => rw [run, run, alike.resources]
  | attacks => rw [run, run, alike.attacks]

end Progress

end CharacterSheet
