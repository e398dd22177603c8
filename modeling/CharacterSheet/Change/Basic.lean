import CharacterSheet.Bonus.Source
import CharacterSheet.Character.Keys
import CharacterSheet.Condition.Basic

/-!
# Changes

A change modifies one statistic by the value of a formula, as a bonus of some
type, provided that its conditions hold.
-/

namespace CharacterSheet

/-- The statistic that a change modifies. -/
inductive ChangeTarget where
  | abilityScore (ability : Ability)
  | abilityChecks (ability : Ability)
  | armorClass
  | naturalArmor
  | savingThrow (target : SaveTarget)
  | skill (id : String)
  | abilitySkills (ability : Ability)
  | baseAttackBonus
  | initiative
  | speed (mode : SpeedMode)
  | attackRolls (kind : AttackKind)
  | damage
  | temporaryHitPoints
  | size
  | customVariable (id : VariableId)
  deriving DecidableEq, Inhabited

namespace ChangeTarget

def members : ChangeTarget → Members
  | abilityScore ability =>
    [("type", .str "ABILITY_SCORE"), ("abilityUniqueId", ability.toJson)]
  | abilityChecks ability =>
    [("type", .str "ABILITY_CHECKS"), ("abilityUniqueId", ability.toJson)]
  | armorClass => [("type", .str "AC")]
  | naturalArmor => [("type", .str "NATURAL_AC")]
  | savingThrow target => [("type", .str "SAVING_THROW"), ("savingThrowUniqueId", target.toJson)]
  | skill id => [("type", .str "SKILL"), ("skillUniqueId", .str id)]
  | abilitySkills ability =>
    [("type", .str "ABILITY_SKILLS"), ("abilityUniqueId", ability.toJson)]
  | baseAttackBonus => [("type", .str "BAB")]
  | initiative => [("type", .str "INITIATIVE")]
  | speed mode => [("type", .str "SPEED"), ("speedUniqueId", mode.toJson)]
  | attackRolls kind => [("type", .str "ATTACK_ROLLS"), ("attackType", kind.toJson)]
  | damage => [("type", .str "DAMAGE")]
  | temporaryHitPoints => [("type", .str "TEMPORARY_HP")]
  | size => [("type", .str "SIZE")]
  | customVariable id => [("type", .str "CUSTOM_VARIABLE"), ("uniqueId", .str id.name)]

def ofMembers? (members : Members) : Option ChangeTarget := do
  match ← members.required "type" Json.string? with
  | "ABILITY_SCORE" => abilityScore <$> members.required "abilityUniqueId" Ability.ofJson?
  | "ABILITY_CHECKS" => abilityChecks <$> members.required "abilityUniqueId" Ability.ofJson?
  | "AC" => return armorClass
  | "NATURAL_AC" => return naturalArmor
  | "SAVING_THROW" => savingThrow <$> members.required "savingThrowUniqueId" SaveTarget.ofJson?
  | "SKILL" => skill <$> members.required "skillUniqueId" Json.string?
  | "ABILITY_SKILLS" => abilitySkills <$> members.required "abilityUniqueId" Ability.ofJson?
  | "BAB" => return baseAttackBonus
  | "INITIATIVE" => return initiative
  | "SPEED" => speed <$> members.required "speedUniqueId" SpeedMode.ofJson?
  | "ATTACK_ROLLS" => attackRolls <$> members.defaulted "attackType" AttackKind.ofJson? .all
  | "DAMAGE" => return damage
  | "TEMPORARY_HP" => return temporaryHitPoints
  | "SIZE" => return size
  | "CUSTOM_VARIABLE" =>
    (fun name => customVariable ⟨name⟩) <$> members.required "uniqueId" Json.string?
  | _ => none

end ChangeTarget

/-- A modifier of one statistic. -/
structure Change where
  target : ChangeTarget
  formula : Formula
  bonusType : String
  conditions : List Condition
  deriving BEq

namespace Change

/-- A change without conditions. -/
def of (target : ChangeTarget) (expression bonusType : String) : Change :=
  ⟨target, .plain expression, bonusType, []⟩

def toJson (change : Change) : Json :=
  .object (change.target.members ++
    [("formula", change.formula.toJson), ("bonusTypeId", .str change.bonusType)] ++
    Members.ofItems "conditions" Condition.toJson change.conditions)

def ofJson? : Json → Option Change :=
  Json.record? fun members => do
    let target ← ChangeTarget.ofMembers? members
    let formula ← members.required "formula" Formula.ofJson?
    let bonusType ← members.defaulted "bonusTypeId" Json.string? BonusType.untyped
    let conditions ← members.listed "conditions" Condition.ofJson?
    return ⟨target, formula, bonusType, conditions⟩

end Change

end CharacterSheet
