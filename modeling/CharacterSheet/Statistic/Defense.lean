import CharacterSheet.Statistic.Basic

/-!
# Saving throws and armor class

Armor class is reduced three times from the same contributions: in full,
against touch attacks and while flat-footed.  The bonus table tells which
types the two variants leave out.
-/

namespace CharacterSheet

/-- A saving throw of the sheet. -/
structure SaveStat where
  /-- The sum of the class progressions. -/
  base : Float
  stat : Stat

namespace SaveStat

def toJson (save : SaveStat) : Json :=
  .object [("base", .ofFloat save.base), ("stat", save.stat.toJson)]

/-- The values published for a saving throw. -/
def published (save : Save) (stat : SaveStat) : List (String × Float) :=
  [("savingThrow." ++ save.short ++ ".base", stat.base),
    ("savingThrow." ++ save.short ++ ".total", stat.stat.total)]

end SaveStat

/-- The armor class of the sheet. -/
structure ArmorClass where
  total : Stat
  touch : Stat
  flatFooted : Stat
  natural : Stat

namespace ArmorClass

/-- The armor class before anything is calculated. -/
def empty : ArmorClass := ⟨Stat.empty, Stat.empty, Stat.empty, Stat.empty⟩

/-- The armor class of anyone. -/
def unarmored : Float := 10

def toJson (armorClass : ArmorClass) : Json :=
  .object [("total", armorClass.total.toJson), ("touch", armorClass.touch.toJson),
    ("flatFooted", armorClass.flatFooted.toJson), ("natural", armorClass.natural.toJson)]

end ArmorClass

namespace Calculation

/-- Whether a change affects a saving throw. -/
def affectsSave (save : Save) : ChangeTarget → Bool
  | .savingThrow target => target.includes save
  | _ => false

/-- What the classes contribute to a saving throw. -/
def classSaves (character : Character) (save : Save) : List (Source Float) :=
  character.classes.map fun taken =>
    Source.base ((taken.saves.get save).atLevel taken.level) taken.name

/-- Calculate one saving throw. -/
def saveStat (calculation : Calculation) (index : Index) (save : Save) : SaveStat :=
  let classSources := classSaves calculation.character save
  { base := Numeric.sum (classSources.map (·.amount))
    stat := calculation.resolve
      (classSources ++ abilitySource index save.ability ::
        calculation.sources index (affectsSave save)) }

/-- Calculate all saving throws. -/
def savingThrows (calculation : Calculation) (index : Index) :
    PhaseResult (SortedMap Save SaveStat) :=
  let saves := Save.all.map fun save => (save, calculation.saveStat index save)
  .of (SortedMap.ofList saves) (saves.flatMap fun entry => SaveStat.published entry.1 entry.2)

/-- What worn armor contributes, and a shield. -/
def wornSources (character : Character) : List (Source Float) :=
  ((character.equipped? ItemKind.armor?).toList.map fun worn =>
      Source.of (worn.2.bonus + worn.2.enhancement) BonusType.armor worn.1.name worn.1.id) ++
    ((character.equipped? ItemKind.shield?).toList.map fun worn =>
      Source.of (worn.2.bonus + worn.2.enhancement) BonusType.shield worn.1.name worn.1.id)

/-- What the dexterity modifier adds to armor class, which worn armor may
limit. -/
def armorDexterity (character : Character) (index : Index) : Float :=
  let dexterity := index.value Ability.dexterity.modifierKey
  match (character.equipped? ItemKind.armor?).bind (·.2.maxDexterity) with
  | some limit => Numeric.minimum dexterity limit
  | none => dexterity

/-- The contributions to armor class, given what natural armor amounts to. -/
def armorClassSources (calculation : Calculation) (index : Index) (natural : Float) :
    List (Source Float) :=
  let dexterityLabel := Ability.dexterity.modifierLabel
  [Source.base ArmorClass.unarmored "Base",
    Source.of (armorDexterity calculation.character index) BonusType.dexterity dexterityLabel
      dexterityLabel,
    Source.of (index.value "size.modifier") BonusType.size "Size modifier" "Size modifier",
    Source.of natural BonusType.naturalArmor "Natural armor" "Natural armor"] ++
    wornSources calculation.character ++ calculation.sourcesOf index .armorClass

/-- Calculate armor class. -/
def armorClass (calculation : Calculation) (index : Index) : PhaseResult ArmorClass :=
  let naturalBase := calculation.character.race.elim 0 (·.naturalArmor)
  let natural := calculation.resolve
    (Source.base naturalBase "Natural armor" :: calculation.sourcesOf index .naturalArmor)
  let sources := calculation.armorClassSources index natural.total
  let rule (source : Source Float) : BonusRule := calculation.table.rule source.type
  let armorClass : ArmorClass :=
    { total := calculation.resolve sources
      touch := calculation.resolve (sources.filter fun source => (rule source).touch)
      flatFooted := calculation.resolve (sources.filter fun source => (rule source).flatFooted)
      natural }
  .of armorClass
    [("ac.natural.base", naturalBase), ("ac.natural.total", natural.total),
      ("ac.total", armorClass.total.total), ("ac.touch.total", armorClass.touch.total),
      ("ac.flatFooted.total", armorClass.flatFooted.total)]

end Calculation

end CharacterSheet
