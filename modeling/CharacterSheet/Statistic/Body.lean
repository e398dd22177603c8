import CharacterSheet.Statistic.Basic

/-!
# Size, speed and hit points

The statistics of the body.  Changes shift the size category in steps, each
way of moving has a speed of its own, and hit points come from the hit dice of
all levels.
-/

namespace CharacterSheet

/-- The size of the sheet. -/
structure SizeStat where
  base : SizeCategory
  current : SizeCategory
  /-- The steps above medium. -/
  stat : Stat

namespace SizeStat

/-- The size before anything is calculated. -/
def empty : SizeStat := ⟨.medium, .medium, Stat.empty⟩

/-- The modifier to armor class and attack rolls. -/
def modifier (size : SizeStat) : Float := size.current.attackModifier

/-- The modifier to grapple. -/
def grappleModifier (size : SizeStat) : Float := size.current.specialModifier

def toJson (size : SizeStat) : Json :=
  .object [("base", size.base.toJson), ("current", size.current.toJson),
    ("stat", size.stat.toJson), ("modifier", .ofFloat size.modifier),
    ("grappleModifier", .ofFloat size.grappleModifier)]

end SizeStat

/-- The hit points of the sheet. -/
structure HitPointStat where
  /-- The hit dice and what constitution adds to them. -/
  maximum : Stat
  current : Float
  damage : Float
  temporary : Float

namespace HitPointStat

/-- The hit points before anything is calculated. -/
def empty : HitPointStat := ⟨Stat.empty, 0, 0, 0⟩

def toJson (points : HitPointStat) : Json :=
  .object [("maxHp", points.maximum.toJson), ("max", .ofFloat points.maximum.total),
    ("current", .ofFloat points.current), ("damage", .ofFloat points.damage),
    ("temporary", .ofFloat points.temporary)]

end HitPointStat

namespace Calculation

/-- Calculate the size: that of the race, shifted by changes.  A shift is
rounded to whole steps, and it stays within the categories there are. -/
def size (calculation : Calculation) (index : Index) : PhaseResult SizeStat :=
  let base := calculation.character.size
  let stat := calculation.resolve
    (Source.base (Float.ofInt base.steps) "Race size" :: calculation.sourcesOf index .size)
  let limit := Int.ofNat (Numeric.powerOfTwo 31)
  let steps := Numeric.toIntWithin (-limit) (limit - 1) (Numeric.round stat.total)
  let size : SizeStat := ⟨base, SizeCategory.ofSteps steps, stat⟩
  .of size [("size.base", Float.ofInt base.steps), ("size.total", Float.ofInt size.current.steps),
    ("size.modifier", size.modifier), ("size.grappleModifier", size.grappleModifier)]

/-- The land speed of a character without a race. -/
def defaultLandSpeed : Float := 30

/-- The speeds that a character has by race. -/
def raceSpeeds (character : Character) : SortedMap SpeedMode Float :=
  match character.race with
  | some race => race.speeds
  | none => SortedMap.ofList [(.land, defaultLandSpeed)]

/-- The way of moving that a change affects, if it affects any. -/
def speedMode? : ChangeTarget → Option SpeedMode
  | .speed mode => some mode
  | _ => none

/-- The base speeds: those of the race, and zero for every other way of moving
that some change affects. -/
def baseSpeeds (calculation : Calculation) : SortedMap SpeedMode Float :=
  (calculation.compiled.changes.filterMap fun compiled => speedMode? compiled.change.target).foldl
    (fun speeds mode => if speeds.contains mode then speeds else speeds.insert mode 0)
    (raceSpeeds calculation.character)

/-- Calculate the speeds. -/
def speeds (calculation : Calculation) (index : Index) :
    PhaseResult (SortedMap SpeedMode Stat) :=
  let bases := calculation.baseSpeeds
  let speeds := bases.mapValues fun mode base =>
    calculation.resolve
      (Source.base base "Base speed" :: calculation.sourcesOf index (.speed mode))
  .of speeds
    (bases.toList.map (fun entry => (entry.1.keyStart ++ ".base", entry.2)) ++
      speeds.toList.map (fun entry => (entry.1.keyStart ++ ".total", entry.2.total)))

/-- The hit dice of the levels reached in a class. -/
def hitDice (taken : CharacterClass) : List (Source Float) :=
  (taken.hitDice.take taken.level).zipIdx.map fun entry =>
    Source.base entry.1 (taken.name ++ " level " ++ toString (entry.2 + 1))

/-- Calculate the hit points.  Constitution counts once for every level.  Of
the temporary hit points that changes grant, only the most counts.  Current
hit points that are set by hand are limited by the maximum. -/
def hitPoints (calculation : Calculation) (index : Index) : PhaseResult HitPointStat :=
  let character := calculation.character
  let constitution := index.value Ability.constitution.modifierKey
  let maximum := calculation.resolve
    (character.classes.flatMap hitDice ++
      [Source.base (constitution * Float.ofNat character.level)
        Ability.constitution.modifierLabel])
  let temporary :=
    ((calculation.sourcesOf index .temporaryHitPoints).map (·.amount)).foldl Numeric.maximum 0
  let damage := character.hitPoints.damage
  let current := match character.hitPoints.current with
    | some current => Numeric.minimum current maximum.total
    | none => maximum.total - damage
  .of { maximum, current, damage, temporary }
    [("hp.max", maximum.total), ("hp.current", current), ("hp.damage", damage),
      ("hp.temporary", temporary)]

end Calculation

end CharacterSheet
