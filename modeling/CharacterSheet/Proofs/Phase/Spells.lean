import CharacterSheet.Proofs.Phase.Reads

/-!
# Numbers of spells that are handed on

The numbers of spells are the values of custom variables, read back from the
index as they are, or those of the tables where no such variable is published.
So they depend on the index only under the keys that the phase reads, and the
sign of a zero there is the sign of a zero on the sheet.
-/

namespace CharacterSheet

/-- The same number, but no negative zero. -/
def KnownCount.unsigned (known : KnownCount) : KnownCount :=
  { known with max := Numeric.unsigned known.max }

def SlotCount.unsigned (slots : SlotCount) : SlotCount :=
  { slots with max := Numeric.unsigned slots.max, current := Numeric.unsigned slots.current }

def TrackStat.unsigned (track : TrackStat) : TrackStat :=
  { track with slots := track.slots.map SlotCount.unsigned }

def SpellStat.unsigned (spells : SpellStat) : SpellStat :=
  { spells with
    known := spells.known.map KnownCount.unsigned
    tracks := spells.tracks.map TrackStat.unsigned }

/-- The same numbers are published, but no negative zero. -/
theorem SpellStat.published_unsigned (spells : SpellStat) :
    spells.unsigned.published =
      spells.published.map fun entry => (entry.1, Numeric.unsigned entry.2) := by
  simp only [published, SpellStat.unsigned, TrackStat.unsigned, List.map_append, List.map_map,
    List.flatMap_map, List.map_flatMap, List.flatMap_assoc]
  rfl

namespace Calculation

variable {calculation : Calculation}

/-- The spells of all classes in which the character has levels. -/
def spellsOf (calculation : Calculation) (index : Index) : List SpellStat :=
  calculation.compiled.spellTracks.filterMap fun definition =>
    match calculation.character.classLevel definition.classId with
    | 0 => none
    | level => some (calculation.spellStat index definition level)

theorem spells_eq (calculation : Calculation) (index : Index) :
    calculation.spells index =
      .of (SortedMap.ofList ((calculation.spellsOf index).map fun spell =>
        (spell.definition.id, spell))) ((calculation.spellsOf index).flatMap (·.published)) :=
  rfl

/-- The numbers that are defined at a class level have their variables. -/
theorem mem_declaredIds_of_spellTracks {definition : SpellTracks}
    (known : definition ∈ calculation.compiled.spellTracks)
    (levels : calculation.character.classLevel definition.classId ≠ 0)
    {number : VariableDefinition}
    (listed : number ∈
      definition.definitions (calculation.character.classLevel definition.classId)) :
    number.id ∈ calculation.declaredIds := by
  refine mem_declaredIds_iff.mpr (Or.inl (List.mem_map_of_mem
    (List.mem_append_right _ (List.mem_flatMap.mpr ⟨definition, known, ?_⟩))))
  cases level : calculation.character.classLevel definition.classId with
  | zero => exact absurd level levels
  | succ lower =>
    rw [level] at listed
    exact listed

variable {first second : Index}
  (resemble : Index.ResembleOn (calculation.reads .spellTracks) first second)

include resemble

theorem finalValue_congr {id : VariableId} (read : id ∈ calculation.variablesRead)
    (given : Float) :
    Numeric.unsigned (finalValue first id given) =
      Numeric.unsigned (finalValue second id given) := by
  rw [finalValue, finalValue, Index.unsigned_getD, Index.unsigned_getD,
    resemble _ (List.mem_map_of_mem read)]

theorem trackStat_congr {definition : SpellTracks} {level : Nat} {track : SlotTrack}
    (read : ∀ entry ∈ track.slots.withoutEmpty level,
      definition.slotVariable entry.1 ∈ calculation.variablesRead) (state : SlotState) :
    (trackStat first definition level state track).unsigned =
      (trackStat second definition level state track).unsigned := by
  rw [trackStat, trackStat, TrackStat.unsigned, TrackStat.unsigned]
  dsimp only
  rw [List.map_map, List.map_map]
  refine congrArg (TrackStat.mk _ _) (List.map_congr_left fun entry member => ?_)
  have max := finalValue_congr resemble (read entry member) entry.2
  simp only [Function.comp_apply, SlotCount.unsigned, Index.unsigned_getD, max]

theorem spellStat_congr {definition : SpellTracks} {level : Nat}
    (read : ∀ id ∈ definition.variablesRead level, id ∈ calculation.variablesRead) :
    (calculation.spellStat first definition level).unsigned =
      (calculation.spellStat second definition level).unsigned := by
  have known : ∀ entry ∈ definition.knownCounts LevelTable.withoutEmpty level,
      definition.knownVariable entry.1 ∈ calculation.variablesRead := fun _ member =>
    read _ (List.mem_append_left _ (List.mem_map_of_mem member))
  have slots : ∀ track ∈ definition.tracks, ∀ entry ∈ track.slots.withoutEmpty level,
      definition.slotVariable entry.1 ∈ calculation.variablesRead := fun track listed _ member =>
    read _ (List.mem_append_right _
      (List.mem_map_of_mem (List.mem_flatMap.mpr ⟨track, listed, member⟩)))
  rw [spellStat, spellStat, SpellStat.unsigned, SpellStat.unsigned]
  dsimp only
  simp only [List.map_map]
  refine congrArg₂ (SpellStat.mk definition level) (List.map_congr_left fun entry member => ?_)
    (List.map_congr_left fun track member => ?_)
  · simp only [Function.comp_apply, KnownCount.unsigned,
      finalValue_congr resemble (known entry member)]
  · exact trackStat_congr resemble (slots track member) _

theorem unsigned_spellsOf :
    (calculation.spellsOf first).map SpellStat.unsigned =
      (calculation.spellsOf second).map SpellStat.unsigned := by
  rw [spellsOf, spellsOf, List.map_filterMap, List.map_filterMap]
  refine List.filterMap_congr fun definition member => ?_
  have read : ∀ id ∈ definition.variablesRead
      (calculation.character.classLevel definition.classId), id ∈ calculation.variablesRead :=
    fun _ listed => List.mem_flatMap.mpr ⟨definition, member, listed⟩
  cases level : calculation.character.classLevel definition.classId with
  | zero => rfl
  | succ lower => exact congrArg some (spellStat_congr resemble (level ▸ read))

/-- The phase puts the same spells on the sheet and publishes the same numbers,
up to the sign of zero. -/
theorem spells_congr :
    ((calculation.spells first).value.mapValues fun _ => SpellStat.unsigned) =
        ((calculation.spells second).value.mapValues fun _ => SpellStat.unsigned) ∧
      (calculation.spells first).update.unsigned = (calculation.spells second).update.unsigned := by
  have value : ∀ index, ((calculation.spells index).value.mapValues fun _ => SpellStat.unsigned) =
      SortedMap.ofList (((calculation.spellsOf index).map SpellStat.unsigned).map fun spell =>
        (spell.definition.id, spell)) := by
    intro index
    rw [spells_eq, PhaseResult.of, SortedMap.mapValues_ofList, List.map_map, List.map_map]
    rfl
  have update : ∀ index, (calculation.spells index).update.unsigned =
      Index.Update.ofList
        (((calculation.spellsOf index).map SpellStat.unsigned).flatMap (·.published)) := by
    intro index
    rw [spells_eq, PhaseResult.of, Index.Update.unsigned_ofList, List.flatMap_map,
      List.map_flatMap]
    simp only [SpellStat.published_unsigned]
  rw [value, value, update, update, unsigned_spellsOf resemble]
  exact ⟨rfl, rfl⟩

end Calculation

end CharacterSheet
