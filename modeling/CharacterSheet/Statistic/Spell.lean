import CharacterSheet.Statistic.Basic

/-!
# Spells of the sheet

The limits on known spells and the numbers of spell slots are custom
variables, which changes may have raised.  Here their final values are read
back and put beside the slots that are left.  The tables are gone through once
more for that, and what is at most zero there is passed over.  A number whose
variable was not calculated is taken from the table of its definition.
-/

namespace CharacterSheet

/-- How many spells of a level, or of all levels together, can be known. -/
structure KnownCount where
  level : Option Nat
  max : Float

namespace KnownCount

def toJson (known : KnownCount) : Json :=
  .object [("level", .ofOption .ofNat known.level), ("max", .ofFloat known.max)]

end KnownCount

/-- The spell slots of a level. -/
structure SlotCount where
  level : Nat
  max : Float
  current : Float

namespace SlotCount

def toJson (slots : SlotCount) : Json :=
  .object [("level", .ofNat slots.level), ("max", .ofFloat slots.max),
    ("current", .ofFloat slots.current)]

end SlotCount

/-- A track of spell slots of the sheet. -/
structure TrackStat where
  id : String
  label : Option String
  slots : List SlotCount

namespace TrackStat

def toJson (track : TrackStat) : Json :=
  .object ([("id", .str track.id)] ++ Members.ofOption "label" .str track.label ++
    [("slots", .ofList SlotCount.toJson track.slots)])

end TrackStat

/-- The spells of a class on the sheet. -/
structure SpellStat where
  definition : SpellTracks
  classLevel : Nat
  known : List KnownCount
  tracks : List TrackStat

namespace SpellStat

def toJson (spells : SpellStat) : Json :=
  .object [("id", .str spells.definition.id), ("classId", .str spells.definition.classId),
    ("classLevel", .ofNat spells.classLevel),
    ("knownLimits", .ofList KnownCount.toJson spells.known),
    ("tracks", .ofList TrackStat.toJson spells.tracks)]

/-- The values published for the spells. -/
def published (spells : SpellStat) : List (String × Float) :=
  spells.known.map (fun known => ((spells.definition.knownVariable known.level).name, known.max)) ++
    (spells.tracks.flatMap (·.slots)).flatMap fun slots =>
      [((spells.definition.slotVariable slots.level).name, slots.max),
        (spells.definition.currentSlotKey slots.level, slots.current)]

end SpellStat

namespace Calculation

/-- The final value of a variable, or a given one if it was not calculated. -/
def finalValue (index : Index) (id : VariableId) (given : Float) : Float :=
  (index.get? id.indexKey).getD given

/-- The slots of a track at a class level. -/
def trackStat (index : Index) (definition : SpellTracks) (classLevel : Nat) (state : SlotState)
    (track : SlotTrack) : TrackStat :=
  { id := track.id
    label := track.label
    slots := (track.slots.withoutEmpty classLevel).map fun entry =>
      let max := finalValue index (definition.slotVariable entry.1) entry.2
      ⟨entry.1, max, (state.remaining.find? entry.1).getD max⟩ }

/-- The spells of a definition at a class level. -/
def spellStat (calculation : Calculation) (index : Index) (definition : SpellTracks)
    (classLevel : Nat) : SpellStat :=
  let state := (calculation.character.slots.find? definition.id).getD ⟨SortedMap.empty⟩
  { definition, classLevel
    known := (definition.knownCounts LevelTable.withoutEmpty classLevel).map fun entry =>
      ⟨entry.1, finalValue index (definition.knownVariable entry.1) entry.2⟩
    tracks := definition.tracks.map (trackStat index definition classLevel state) }

/-- Calculate the spells of all classes in which the character has levels.  Of
two definitions with one id the later counts. -/
def spells (calculation : Calculation) (index : Index) :
    PhaseResult (SortedMap String SpellStat) :=
  let spells := calculation.compiled.spellTracks.filterMap fun definition =>
    match calculation.character.classLevel definition.classId with
    | 0 => none
    | level => some (calculation.spellStat index definition level)
  .of (SortedMap.ofList (spells.map fun spell => (spell.definition.id, spell)))
    (spells.flatMap (·.published))

end Calculation

end CharacterSheet
