import CharacterSheet.Statistic.Basic

/-!
# Abilities and initiative

The score of an ability is its base score with the changes to it, less what
drains and damages it.  The modifier follows from the score, and checks and
initiative start from a modifier.
-/

namespace CharacterSheet

/-- The modifier that a score gives: half of what it has above ten, rounded
down. -/
def abilityModifier (score : Float) : Float :=
  Numeric.floor ((score - 10) / 2)

/-- An ability of the sheet. -/
structure AbilityStat where
  ability : Ability
  /-- The base score and the changes to it. -/
  score : Stat
  /-- The score less drain, damage and penalties, and never below zero. -/
  total : Float
  modifier : Float
  /-- The modifier and the changes to checks. -/
  check : Stat

namespace AbilityStat

def toJson (stat : AbilityStat) : Json :=
  .object [("ability", stat.ability.toJson), ("score", stat.score.toJson),
    ("totalScore", .ofFloat stat.total), ("modifier", .ofFloat stat.modifier),
    ("check", stat.check.toJson)]

/-- The values published for an ability. -/
def published (stat : AbilityStat) : List (String × Float) :=
  [(stat.ability.scoreKey, stat.total), (stat.ability.modifierKey, stat.modifier)]

end AbilityStat

namespace Calculation

/-- Calculate one ability. -/
def abilityStat (calculation : Calculation) (index : Index) (ability : Ability) : AbilityStat :=
  let given := calculation.character.ability ability
  let score := calculation.resolve
    (Source.base given.base "Base score" ::
      calculation.sourcesOf index (.abilityScore ability))
  let total := Numeric.maximum (score.total - given.drain - given.damage - given.penalty) 0
  let modifier := abilityModifier total
  { ability, score, total, modifier
    check := calculation.resolve
      (Source.base modifier ability.modifierLabel ::
        calculation.sourcesOf index (.abilityChecks ability)) }

/-- Calculate all abilities. -/
def abilities (calculation : Calculation) (index : Index) :
    PhaseResult (SortedMap Ability AbilityStat) :=
  let stats := Ability.all.map (calculation.abilityStat index)
  .of (SortedMap.ofList (stats.map fun stat => (stat.ability, stat)))
    (stats.flatMap (·.published))

/-- Calculate initiative: the dexterity modifier and the changes to it. -/
def initiative (calculation : Calculation) (index : Index) : PhaseResult Stat :=
  let dexterity := index.value Ability.dexterity.modifierKey
  let stat := calculation.resolve
    (abilitySource index .dexterity :: calculation.sourcesOf index .initiative)
  .of stat [("initiative.base", dexterity), ("initiative.total", stat.total)]

end Calculation

end CharacterSheet
