import CharacterSheet.Statistic.Basic

/-!
# Base attack and attacks

The base attack bonus is the sum of the class progressions with the changes to
it.  Together with an ability and the size it gives the bases of melee and
ranged attacks and of grappling.  Every equipped weapon gives an attack.
-/

namespace CharacterSheet

/-- The base attack bonus of the sheet and what follows from it. -/
structure BaseAttackStat where
  /-- The sum of the class progressions. -/
  base : Float
  total : Stat
  melee : Stat
  ranged : Stat
  grapple : Stat

namespace BaseAttackStat

/-- The bonus before anything is calculated. -/
def empty : BaseAttackStat := ⟨0, Stat.empty, Stat.empty, Stat.empty, Stat.empty⟩

def toJson (attack : BaseAttackStat) : Json :=
  .object [("base", .ofFloat attack.base), ("total", attack.total.toJson),
    ("meleeAttack", attack.melee.toJson), ("rangedAttack", attack.ranged.toJson),
    ("grapple", attack.grapple.toJson)]

end BaseAttackStat

/-- An attack of the sheet. -/
structure AttackStat where
  /-- The id of the weapon among the items. -/
  itemId : String
  name : String
  weapon : Weapon
  bonus : Stat
  damageBonus : Stat
  /-- The names of the contextual changes that take part in the attack. -/
  applied : List String
  /-- The names of the contextual changes that the player may add. -/
  offered : List String

namespace AttackStat

/-- Dice together with a bonus of known sign, which is left out if it is
zero. -/
def damageText (dice : String) (bonus : Float) : String :=
  if 0 < bonus then dice ++ "+" ++ Numeric.plainText bonus
  else if bonus < 0 then dice ++ Numeric.plainText bonus
  else dice

/-- The damage of the attack. -/
def damage (attack : AttackStat) : String :=
  damageText attack.weapon.damageDice attack.damageBonus.total

def toJson (attack : AttackStat) : Json :=
  .object ([("itemId", .str attack.itemId), ("name", .str attack.name),
      ("attackType", attack.weapon.kind.toJson), ("bonus", attack.bonus.toJson),
      ("damageBonus", attack.damageBonus.toJson), ("damage", .str attack.damage)] ++
    Members.ofItems "appliedContextualChanges" .str attack.applied ++
    Members.ofItems "optionalContextualChanges" .str attack.offered)

end AttackStat

namespace WeaponKind

/-- The key of the base of attacks. -/
def attackBaseKey : WeaponKind → String
  | melee => "melee.attack.base"
  | ranged => "ranged.attack.base"

/-- What the base of attacks is called in breakdowns. -/
def attackBaseLabel : WeaponKind → String
  | melee => "Melee attack"
  | ranged => "Ranged attack"

end WeaponKind

namespace Calculation

/-- What the classes contribute to the base attack bonus. -/
def classAttacks (character : Character) : List (Source Float) :=
  character.classes.map fun taken => Source.base (taken.attack.atLevel taken.level) taken.name

/-- A base of attacks: the base attack bonus, an ability and a modifier for
size. -/
def attackBase (calculation : Calculation) (index : Index) (baseAttack : Float)
    (ability : Ability) (sizeKey : String) : Stat :=
  calculation.resolve
    [Source.base baseAttack "Base attack bonus", abilitySource index ability,
      Source.of (index.value sizeKey) BonusType.size "Size" "Size"]

/-- Calculate the base attack bonus and the bases of attacks. -/
def baseAttackBonus (calculation : Calculation) (index : Index) : PhaseResult BaseAttackStat :=
  let classSources := classAttacks calculation.character
  let base := Numeric.sum (classSources.map (·.amount))
  let total := calculation.resolve (classSources ++ calculation.sourcesOf index .baseAttackBonus)
  let attack : BaseAttackStat :=
    { base, total
      melee := calculation.attackBase index total.total .strength "size.modifier"
      ranged := calculation.attackBase index total.total .dexterity "size.modifier"
      grapple := calculation.attackBase index total.total .strength "size.grappleModifier" }
  .of attack
    [("bab.base", base), ("bab.total", total.total),
      (WeaponKind.melee.attackBaseKey, attack.melee.total),
      (WeaponKind.ranged.attackBaseKey, attack.ranged.total),
      ("grapple.bonus", attack.grapple.total)]

/-- Whether a change affects the rolls of a kind of attacks. -/
def affectsAttackRolls (kind : AttackKind) : ChangeTarget → Bool
  | .attackRolls target => target.includes kind
  | _ => false

/-- What the enhancement of a weapon contributes. -/
def enhancementSource (item : Item) (weapon : Weapon) : Source Float :=
  Source.of weapon.enhancement BonusType.enhancement item.name item.id

/-- What strength contributes to damage, which it does in close combat
only. -/
def damageStrength (index : Index) : WeaponKind → List (Source Float)
  | .melee => [abilitySource index .strength]
  | .ranged => []

/-- The names of the contextual changes that the player may add to an
attack. -/
def offered (calculation : Calculation) (kind : AttackKind) : List String :=
  (calculation.compiled.contextual.filter fun compiled =>
    compiled.contextual.isOffered && compiled.contextual.appliesTo.includes kind).map
      (·.contextual.name)

/-- Calculate the attack with a weapon. -/
def attackStat (calculation : Calculation) (index : Index) (item : Item) (weapon : Weapon) :
    AttackStat :=
  let kind := weapon.kind.attackKind
  let all (selects : ChangeTarget → Bool) : List (Source Float) :=
    calculation.sources index selects ++ calculation.contextualSources index kind selects
  let enhancement := enhancementSource item weapon
  { itemId := item.id, name := item.name, weapon
    bonus := calculation.resolve
      (Source.base (index.value weapon.kind.attackBaseKey) weapon.kind.attackBaseLabel ::
        enhancement :: all (affectsAttackRolls kind))
    damageBonus := calculation.resolve
      (enhancement :: damageStrength index weapon.kind ++ all (· == .damage))
    applied := (calculation.mandatory kind).map (·.contextual.name)
    offered := calculation.offered kind }

/-- Calculate the attacks with all equipped weapons.  They publish nothing. -/
def attacks (calculation : Calculation) (index : Index) : PhaseResult (List AttackStat) :=
  let equipped := calculation.character.items.filter (·.equipped)
  .of
    (equipped.filterMap fun item =>
      item.kind.weapon?.map (calculation.attackStat index item))
    []

end Calculation

end CharacterSheet
