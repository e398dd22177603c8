import CharacterSheet.Proofs.Sheet.SpellNumbers
import CharacterSheet.Proofs.Sheet.VariableValue
import CharacterSheet.Proofs.Statistic.Gathering

/-!
# Where the numbers of spell slots come from

All tracks of a definition write the numbers of their tables into the same
variables, one for each spell level, and each track reads its numbers back from
there.  So a track does not report the number of its own table but the total of
what the tables of all tracks give for the spell level.  The number of its own
table it is only if no other table gives one.  This is for tables without
undefined numbers, which have no variable.
-/

namespace CharacterSheet

namespace Numeric

/-- The total of some numbers as a value that is published: neither infinite
numbers nor an infinite total count. -/
def finiteTotal (numbers : List Float) : Float :=
  orZero ((numbers.filter (·.isFinite)).foldl (· + ·) 0)

theorem finiteTotal_singleton {number : Float} (finite : number.isFinite = true)
    (positive : 0 < number) : finiteTotal [number] = number := by
  rw [finiteTotal, List.filter_cons, if_pos finite, List.filter_nil, List.foldl_cons,
    List.foldl_nil, zero_add_of_isFinite finite (beq_zero_of_pos finite positive), orZero,
    if_pos finite]

end Numeric

namespace LevelTable

/-- The number for one spell level, if it counts. -/
theorem filter_positives (table : LevelTable) (classLevel level : Nat) :
    (table.positives classLevel).filter (·.1 == level) =
      ((table.row classLevel)[level]?.filter (0 < ·)).toList.map (level, ·) := by
  have distinct : ((table.positives classLevel).map Prod.fst).Nodup :=
    (table.lists_positives classLevel).1.imp fun less => less.ne
  cases counted : (table.row classLevel)[level]?.filter (0 < ·) with
  | some number =>
    rcases Option.filter_eq_some_iff.mp counted with ⟨inRow, positive⟩
    have member : (level, number) ∈ table.positives classLevel :=
      (table.mem_positives classLevel).mpr ⟨inRow, of_decide_eq_true positive⟩
    exact filter_key_eq_singleton Prod.fst distinct member
  | none =>
    refine List.filter_eq_nil_iff.mpr fun entry member same => ?_
    rcases (table.mem_positives classLevel).mp member with ⟨inRow, positive⟩
    rw [eq_of_beq same] at inRow
    have passes := Option.filter_eq_none_iff.mp counted entry.2 inRow
    exact passes (decide_eq_true positive)

end LevelTable

namespace SpellTracks

/-! ## The names of the variables -/

/-- The last part before the end of a name tells two names apart. -/
theorem parts_of_name {first second part other : String} (notFirst : '.' ∉ part.toList)
    (notSecond : '.' ∉ other.toList)
    (same : first ++ "." ++ part ++ ".max" = second ++ "." ++ other ++ ".max") :
    first = second ∧ part = other := by
  have characters : first.toList ++ '.' :: part.toList = second.toList ++ '.' :: other.toList := by
    have whole := congrArg String.toList same
    simp only [String.toList_append] at whole
    simpa using List.append_cancel_right whole
  rcases append_cons_inj_of_not_mem notFirst notSecond characters with ⟨sameStart, samePart⟩
  exact ⟨String.toList_inj.mp sameStart, String.toList_inj.mp samePart⟩

variable (first second : SpellTracks)

theorem slotVariable_name (level : Nat) :
    (first.slotVariable level).name =
      first.variableStart ++ ".slot" ++ "." ++ toString level ++ ".max" := by
  have split : ".slot." = ".slot" ++ "." := rfl
  rw [slotVariable, split]
  simp only [String.append_assoc]

theorem knownVariable_name (level : Nat) :
    (first.knownVariable (some level)).name =
      first.variableStart ++ ".known" ++ "." ++ toString level ++ ".max" := by
  have split : ".known." = ".known" ++ "." := rfl
  rw [knownVariable, split]
  simp only [String.append_assoc]

theorem knownVariable_none_name :
    (first.knownVariable none).name =
      first.variableStart ++ ".known" ++ "." ++ "total" ++ ".max" := by
  have split : ".known.total.max" = ".known" ++ "." ++ "total" ++ ".max" := rfl
  rw [knownVariable, split]
  simp only [String.append_assoc]

theorem slotVariable_eq_iff {level other : Nat} :
    first.slotVariable level = second.slotVariable other ↔
      first.variableStart = second.variableStart ∧ level = other := by
  constructor
  · intro same
    have names := congrArg VariableId.name same
    rw [slotVariable_name, slotVariable_name] at names
    rcases parts_of_name (Numeric.dot_not_mem_toString level)
      (Numeric.dot_not_mem_toString other) names with ⟨starts, levels⟩
    refine ⟨?_, Numeric.toString_injective levels⟩
    have characters := congrArg String.toList starts
    rw [String.toList_append, String.toList_append] at characters
    exact String.toList_inj.mp (List.append_cancel_right characters)
  · rintro ⟨starts, rfl⟩
    rw [slotVariable, slotVariable, starts]

theorem knownVariable_ne_slotVariable (known : Option Nat) (level : Nat) :
    first.knownVariable known ≠ second.slotVariable level := by
  intro same
  have names := congrArg VariableId.name same
  have starts : first.variableStart ++ ".known" = second.variableStart ++ ".slot" := by
    cases known with
    | none =>
      rw [knownVariable_none_name, slotVariable_name] at names
      exact (parts_of_name (by decide) (Numeric.dot_not_mem_toString level) names).1
    | some counted =>
      rw [knownVariable_name, slotVariable_name] at names
      exact (parts_of_name (Numeric.dot_not_mem_toString counted)
        (Numeric.dot_not_mem_toString level) names).1
  have ends := congrArg (fun name => name.toList.getLast?) starts
  simp at ends

/-! ## The numbers of a spell level -/

/-- The positive numbers that the tables of the tracks give for a spell level,
track by track. -/
def slotNumbers (tracks : SpellTracks) (classLevel level : Nat) : List Float :=
  tracks.tracks.filterMap fun track => (track.slots.row classLevel)[level]?.filter (0 < ·)

theorem positive_of_mem_slotNumbers (tracks : SpellTracks) {classLevel level : Nat} {number : Float}
    (member : number ∈ tracks.slotNumbers classLevel level) : 0 < number := by
  rcases List.mem_filterMap.mp member with ⟨_, _, counted⟩
  exact of_decide_eq_true (Option.filter_eq_some_iff.mp counted).2

variable {tracks others : SpellTracks} {classLevel level : Nat}

theorem filter_positives (tracks : SpellTracks) (classLevel level : Nat) :
    (tracks.tracks.flatMap fun track => track.slots.positives classLevel).filter (·.1 == level) =
      (tracks.slotNumbers classLevel level).map (level, ·) := by
  rw [slotNumbers]
  induction tracks.tracks with
  | nil => rfl
  | cons track rest inductionHypothesis =>
    rw [List.flatMap_cons, List.filter_append, inductionHypothesis, LevelTable.filter_positives,
      List.filterMap_cons]
    cases (track.slots.row classLevel)[level]?.filter (0 < ·) <;> rfl

/-- Other tracks define nothing for the slots of these. -/
theorem id_ne_slotVariable (starts : others.variableStart ≠ tracks.variableStart)
    (caster : others.casterLevelVariable ≠ (tracks.slotVariable level).name) :
    ∀ definition ∈ others.definitions classLevel, definition.id ≠ tracks.slotVariable level := by
  intro definition member
  simp only [definitions, List.mem_append, List.mem_map, List.mem_singleton] at member
  rcases member with (⟨entry, _, rfl⟩ | ⟨entry, _, rfl⟩) | rfl
  · exact knownVariable_ne_slotVariable others tracks entry.1 level
  · exact fun same => starts ((slotVariable_eq_iff others tracks).mp same).1
  · exact fun same => caster (congrArg VariableId.name same)

/-- The slots of each counted level are defined as a variable. -/
theorem mem_definitions_slots {track : SlotTrack} (listed : track ∈ tracks.tracks)
    {entry : Nat × Float} (member : entry ∈ track.slots.positives classLevel) :
    .constant (tracks.slotVariable entry.1) (tracks.slotLabel entry.1) entry.2 ∈
      tracks.definitions classLevel :=
  List.mem_append_left _ (List.mem_append_right _
    (List.mem_map.mpr ⟨entry, List.mem_flatMap.mpr ⟨track, listed, member⟩, rfl⟩))

/-- For the slots of a spell level the tracks define what their tables give. -/
theorem sourcesFor_definitions
    (caster : tracks.casterLevelVariable ≠ (tracks.slotVariable level).name) :
    VariableDefinition.sourcesFor (tracks.slotVariable level) (tracks.definitions classLevel) =
      (tracks.slotNumbers classLevel level).map fun number =>
        VariableSource.base (tracks.slotLabel level) (Numeric.plainText number) := by
  have known : ∀ definition ∈ (tracks.knownCounts LevelTable.positives classLevel).map fun entry =>
        VariableDefinition.constant (tracks.knownVariable entry.1) (tracks.knownLabel entry.1)
          entry.2, definition.id ≠ tracks.slotVariable level := by
    intro definition member
    rcases List.mem_map.mp member with ⟨entry, _, rfl⟩
    exact knownVariable_ne_slotVariable tracks tracks entry.1 level
  have casterLevel : ∀ definition ∈ [VariableDefinition.constant ⟨tracks.casterLevelVariable⟩
        (tracks.classId ++ " caster level") (Float.ofNat classLevel)],
      definition.id ≠ tracks.slotVariable level :=
    List.forall_mem_singleton.mpr fun same => caster (congrArg VariableId.name same)
  have sameLevel : ∀ entry : Nat × Float,
      (tracks.slotVariable entry.1 == tracks.slotVariable level) = (entry.1 == level) := by
    intro entry
    rw [Bool.eq_iff_iff, beq_iff_eq, beq_iff_eq, slotVariable_eq_iff]
    exact ⟨And.right, And.intro rfl⟩
  rw [definitions, VariableDefinition.sourcesFor_append, VariableDefinition.sourcesFor_append,
    VariableDefinition.sourcesFor_eq_nil known, VariableDefinition.sourcesFor_eq_nil casterLevel,
    List.nil_append, List.append_nil, VariableDefinition.sourcesFor, List.filter_map]
  have slots : ((·.id == tracks.slotVariable level) ∘ fun entry : Nat × Float =>
        VariableDefinition.constant (tracks.slotVariable entry.1) (tracks.slotLabel entry.1)
          entry.2) = (·.1 == level) :=
    funext sameLevel
  rw [slots, filter_positives, List.flatMap_map, List.flatMap_map]
  exact List.map_eq_flatMap.symm

end SpellTracks

namespace Calculation

/-- The variables that some spell tracks define, if the character has levels in
their class. -/
def generated (calculation : Calculation) (tracks : SpellTracks) : List VariableDefinition :=
  match calculation.character.classLevel tracks.classId with
  | 0 => []
  | level => tracks.definitions level

/-- The variable for the slots of a spell level is left to some spell tracks: the
variables of no other tracks begin alike, nothing else is defined under its name
or changes it, and no variable has its key as name. -/
structure LeavesSlotsTo (calculation : Calculation) (tracks : SpellTracks) (level : Nat) :
    Prop where
  start : (calculation.compiled.spellTracks.map (·.variableStart)).count tracks.variableStart = 1
  changes : ∀ compiled ∈ calculation.compiled.changes,
    compiled.change.target ≠ .customVariable (tracks.slotVariable level)
  definitions : ∀ definition ∈ calculation.compiled.special.filterMap SpecialChange.definition?,
    definition.id ≠ tracks.slotVariable level
  casterLevels : ∀ others ∈ calculation.compiled.spellTracks,
    others.casterLevelVariable ≠ (tracks.slotVariable level).name
  names : ∀ id ∈ calculation.declaredIds, id.name ≠ (tracks.slotVariable level).indexKey

variable {calculation : Calculation} {tracks : SpellTracks} {level : Nat}

instance : Decidable (calculation.LeavesSlotsTo tracks level) :=
  decidable_of_iff (_ ∧ _ ∧ _ ∧ _ ∧ _)
    ⟨fun ⟨start, changes, definitions, casterLevels, names⟩ =>
      ⟨start, changes, definitions, casterLevels, names⟩,
    fun leaves => ⟨leaves.start, leaves.changes, leaves.definitions, leaves.casterLevels,
      leaves.names⟩⟩

theorem generated_of_ne_zero (levels : calculation.character.classLevel tracks.classId ≠ 0) :
    calculation.generated tracks =
      tracks.definitions (calculation.character.classLevel tracks.classId) := by
  rw [generated]
  cases classLevel : calculation.character.classLevel tracks.classId with
  | zero => exact absurd classLevel levels
  | succ lower => rfl

theorem mem_definitions_of_generated {definition : VariableDefinition}
    (member : definition ∈ calculation.generated tracks) :
    definition ∈ tracks.definitions (calculation.character.classLevel tracks.classId) := by
  by_cases levels : calculation.character.classLevel tracks.classId = 0
  · rw [generated, levels] at member
    exact absurd member List.not_mem_nil
  · rwa [generated_of_ne_zero levels] at member

/-- The numbers of the tables are all that is defined for the slots. -/
theorem LeavesSlotsTo.sourcesFor (leaves : calculation.LeavesSlotsTo tracks level)
    (known : tracks ∈ calculation.compiled.spellTracks)
    (levels : calculation.character.classLevel tracks.classId ≠ 0) :
    VariableDefinition.sourcesFor (tracks.slotVariable level)
        (calculation.compiled.definitions calculation.character) =
      (tracks.slotNumbers (calculation.character.classLevel tracks.classId) level).map
        fun number => VariableSource.base (tracks.slotLabel level) (Numeric.plainText number) := by
  -- the definitions before and after these tracks are all of tracks that begin otherwise
  rcases List.append_of_mem known with ⟨before, after, split⟩
  have once := leaves.start
  rw [split, List.map_append, List.map_cons, List.count_append, List.count_cons_self] at once
  have starts : ∀ others ∈ before ++ after, others.variableStart ≠ tracks.variableStart := by
    intro others member same
    have listed : tracks.variableStart ∈ (before ++ after).map (·.variableStart) :=
      same ▸ List.mem_map_of_mem member
    rw [List.map_append, ← List.count_pos_iff, List.count_append] at listed
    omega
  have nothing : ∀ rest ⊆ before ++ after, VariableDefinition.sourcesFor
      (tracks.slotVariable level) (rest.flatMap calculation.generated) = [] := by
    intro rest among
    refine VariableDefinition.sourcesFor_eq_nil fun definition member => ?_
    rcases List.mem_flatMap.mp member with ⟨others, listed, defined⟩
    have elsewhere : others ∈ calculation.compiled.spellTracks := by
      rw [split]
      exact ((List.sublist_cons_self tracks after).append_left before).subset (among listed)
    exact SpellTracks.id_ne_slotVariable (starts others (among listed))
      (leaves.casterLevels others elsewhere) definition (mem_definitions_of_generated defined)
  have whole : calculation.compiled.definitions calculation.character =
      calculation.compiled.special.filterMap SpecialChange.definition? ++
        calculation.compiled.spellTracks.flatMap calculation.generated :=
    rfl
  rw [whole, VariableDefinition.sourcesFor_append,
    VariableDefinition.sourcesFor_eq_nil leaves.definitions, List.nil_append, split,
    List.flatMap_append, List.flatMap_cons, VariableDefinition.sourcesFor_append,
    VariableDefinition.sourcesFor_append, nothing before (List.subset_append_left _ _),
    nothing after (List.subset_append_right _ _), List.nil_append, List.append_nil,
    generated_of_ne_zero levels]
  exact SpellTracks.sourcesFor_definitions (leaves.casterLevels tracks known)

/-- If no number of the table is undefined, the slots that count are listed with
what is found under their variable. -/
theorem exists_of_mem_trackStat {index : Index} {classLevel : Nat} {state : SlotState}
    {track : SlotTrack} (defined : track.slots.DefinedAt classLevel) {slots : SlotCount}
    (listed : slots ∈ (trackStat index tracks classLevel state track).slots) :
    ∃ number, (track.slots.row classLevel)[slots.level]? = some number ∧ 0 < number ∧
      slots.max = finalValue index (tracks.slotVariable slots.level) number := by
  rcases List.mem_map.mp listed with ⟨entry, counted, rfl⟩
  rw [track.slots.withoutEmpty_eq_positives classLevel defined] at counted
  rcases (track.slots.mem_positives classLevel).mp counted with ⟨inRow, positive⟩
  exact ⟨entry.2, inRow, positive, rfl⟩

end Calculation

namespace Sheet

variable {character : Character} {config : Config} (valid : config.validate = .ok ())
  (adds : config.bonusTypes.addsUp BonusType.base = true)

include valid adds

/-- The variable for the slots of a spell level has the total of the numbers as
its value. -/
theorem get?_slotVariable {tracks : SpellTracks} {level : Nat}
    (leaves : (calculation character config).LeavesSlotsTo tracks level)
    (known : tracks ∈ (calculation character config).compiled.spellTracks)
    (levels : character.classLevel tracks.classId ≠ 0)
    (declared : tracks.slotVariable level ∈ (calculation character config).declaredIds) :
    (calculate character config).index.get? (tracks.slotVariable level).indexKey =
      some (Numeric.finiteTotal
        (tracks.slotNumbers (character.classLevel tracks.classId) level)) := by
  have evaluated : tracks.slotVariable level ∈
      (calculate character config).statistics.customVariables.map VariableStat.id := by
    rw [customVariables_calculate valid, Calculation.map_id_evaluateInOrder]
    exact ((Calculation.perm_evaluated _).map _).mem_iff.mpr declared
  rcases List.mem_map.mp evaluated with ⟨calculated, member, named⟩
  have stands := get?_calculate_of_unnamed valid member (named ▸ leaves.names)
  rw [customVariables_calculate valid] at member
  rcases Calculation.exists_variableStat_of_mem member with ⟨definition, listed, index, rfl⟩
  have id : definition.id = tracks.slotVariable level := named
  have sources := (calculation character config).gathers_declarations.sources definition
    ((Calculation.perm_evaluated _).mem_iff.mp listed)
  rw [id, leaves.sourcesFor known levels] at sources
  have total := Calculation.total_variableStat adds (id ▸ leaves.changes) sources index
  rw [Calculation.filter_contributes_orZero fun _ => tracks.positive_of_mem_slotNumbers] at total
  rw [← named, stands, total]
  rfl

end Sheet

/-- Every track of the sheet reports the numbers of its own table. -/
def SpellStat.OwnMaxima (spells : SpellStat) : Prop :=
  List.Forall₂
    (fun track listed => ∀ slots ∈ listed.slots,
      (track.slots.row spells.classLevel)[slots.level]? = some slots.max)
    spells.definition.tracks spells.tracks

namespace Sheet

/-- For a spell level whose variable is left to some spell tracks, and tables
without undefined numbers, every track of them reports the total of the numbers
of all tracks, which is the number of its own table if that is the only one. -/
theorem slots_total (character : Character) (config : Config) (valid : config.validate = .ok ())
    (adds : config.bonusTypes.addsUp BonusType.base = true) (id : String) (spells : SpellStat)
    (entry : (calculate character config).statistics.spells.find? id = some spells)
    (defined : ∀ track ∈ spells.definition.tracks, track.slots.DefinedAt spells.classLevel)
    (level : Nat) (leaves : (calculation character config).LeavesSlotsTo spells.definition level) :
    List.Forall₂
      (fun track listed => ∀ slots ∈ listed.slots, slots.level = level →
        let numbers := spells.definition.slotNumbers spells.classLevel level
        slots.max = Numeric.finiteTotal numbers ∧
          ∀ number, numbers = [number] → number.isFinite = true →
            (track.slots.row spells.classLevel)[level]? = some slots.max)
      spells.definition.tracks spells.tracks := by
  rw [spells_calculate valid] at entry
  rcases List.mem_map.mp (SortedMap.mem_of_find?_ofList entry) with ⟨_, member, same⟩
  cases same
  rcases Calculation.mem_spellsOf_iff.mp member with ⟨definition, known, levels, rfl⟩
  refine List.forall₂_map_right_iff.mpr (List.forall₂_same.mpr fun track isTrack => ?_)
  rintro slots listed rfl numbers
  rcases Calculation.exists_of_mem_trackStat (defined track isTrack) listed with
    ⟨own, inRow, positive, readBack⟩
  have counted : (slots.level, own) ∈ track.slots.positives
      (character.classLevel definition.classId) :=
    (track.slots.mem_positives _).mpr ⟨inRow, positive⟩
  have declared : definition.slotVariable slots.level ∈
      (calculation character config).declaredIds :=
    Calculation.mem_declaredIds_of_spellTracks known levels
      (SpellTracks.mem_definitions_slots isTrack counted)
  have early : ((atTurn character config .spellTracks).index.get?
      (definition.slotVariable slots.level).indexKey).isSome = true :=
    isSome_get?_atTurn_spellTracks valid declared
  have left : (calculation character config).LeavesSlotsTo definition slots.level := leaves
  have max : slots.max = Numeric.finiteTotal numbers := by
    have stands := get?_slotVariable valid adds left known levels declared
    rw [get?_calculate_of_atTurn early] at stands
    rw [readBack, Calculation.finalValue, stands, Option.getD_some]
    rfl
  -- the number of its own table is among the numbers, so a single one must be this
  refine ⟨max, fun number only finite => ?_⟩
  have isOwn : own ∈ numbers := by
    refine List.mem_filterMap.mpr ⟨track, isTrack, ?_⟩
    exact Option.filter_eq_some_iff.mpr ⟨inRow, decide_eq_true positive⟩
  rw [only, List.mem_singleton] at isOwn
  rw [only, Numeric.finiteTotal_singleton finite (isOwn ▸ positive), ← isOwn] at max
  rw [max]
  exact inRow

/-- A cleric of the first level with two tracks, each with slots of level one. -/
def cleric : Character :=
  { Character.of "sample" with
    classes := [CharacterClass.of "cleric" "Cleric" 1]
    special := [.spellTracks
      { id := "spells"
        classId := "cleric"
        variableStart := "cleric.spell"
        casterLevelVariable := "castingClassLevel.cleric"
        known := none
        tracks := [⟨"base", none, LevelTable.empty.withRow 1 [0, 4]⟩,
          ⟨"domain", none, LevelTable.empty.withRow 1 [0, 2]⟩] }] }

/-- What the sheet of the cleric reports. -/
theorem exists_spells_cleric :
    ∃ spells,
      (calculate cleric Config.default).statistics.spells.find? "spells" = some spells ∧
        (∀ track ∈ spells.definition.tracks, track.slots.DefinedAt spells.classLevel) ∧
        (calculation cleric Config.default).LeavesSlotsTo spells.definition 1 ∧
        (spells.tracks.flatMap (·.slots)).map (·.level) = [1, 1] ∧
        (Numeric.finiteTotal (spells.definition.slotNumbers spells.classLevel 1) == 6) = true ∧
        ∃ pair ∈ spells.definition.tracks.zip spells.tracks, ∃ slots ∈ pair.2.slots,
          (pair.1.slots.row spells.classLevel)[slots.level]? ≠ some slots.max := by
  have reported : ((calculate cleric Config.default).statistics.spells.find? "spells").map
      (fun spells => decide <|
        (∀ track ∈ spells.definition.tracks, track.slots.DefinedAt spells.classLevel) ∧
          (calculation cleric Config.default).LeavesSlotsTo spells.definition 1 ∧
          (spells.tracks.flatMap (·.slots)).map (·.level) = [1, 1] ∧
          (Numeric.finiteTotal (spells.definition.slotNumbers spells.classLevel 1) == 6) = true ∧
          ∃ pair ∈ spells.definition.tracks.zip spells.tracks, ∃ slots ∈ pair.2.slots,
            (pair.1.slots.row spells.classLevel)[slots.level]? ≠ some slots.max) = some true := by
    decide +kernel
  rcases Option.map_eq_some_iff.mp reported with ⟨spells, entry, holds⟩
  exact ⟨spells, entry, of_decide_eq_true holds⟩

theorem slots_total_cleric :
    Config.default.validate = .ok () ∧ Config.default.bonusTypes.addsUp BonusType.base = true ∧
      ∃ spells,
        (calculate cleric Config.default).statistics.spells.find? "spells" = some spells ∧
          (∀ track ∈ spells.definition.tracks, track.slots.DefinedAt spells.classLevel) ∧
          (calculation cleric Config.default).LeavesSlotsTo spells.definition 1 ∧
          (spells.tracks.flatMap (·.slots)).map (·.level) = [1, 1] ∧
          List.Forall₂
            (fun _ listed => ∀ slots ∈ listed.slots, slots.level = 1 → (slots.max == 6) = true)
            spells.definition.tracks spells.tracks := by
  have valid : Config.default.validate = .ok () := rfl
  have adds : Config.default.bonusTypes.addsUp BonusType.base = true := by decide +kernel
  rcases exists_spells_cleric with ⟨spells, entry, defined, leaves, levels, six, -⟩
  have totals := slots_total cleric Config.default valid adds "spells" spells entry defined 1 leaves
  refine ⟨valid, adds, spells, entry, defined, leaves, levels,
    totals.imp fun _ _ reports slots listed first => ?_⟩
  rw [(reports slots listed first).1]
  exact six

/-- Tracks do not always report the numbers of their own tables, not even if
there is but one definition of spell tracks and no change or definition of any
other variable. -/
theorem not_ownMaxima_cleric :
    ¬ ∀ (character : Character) (id : String) (spells : SpellStat),
      (calculate character Config.default).statistics.spells.find? id = some spells →
      (calculation character Config.default).compiled.spellTracks.length = 1 →
      (calculation character Config.default).compiled.changes = [] →
      (calculation character Config.default).compiled.special.filterMap
        SpecialChange.definition? = [] →
      spells.OwnMaxima := by
  intro law
  rcases exists_spells_cleric with
    ⟨spells, entry, -, -, -, -, ⟨track, listed⟩, paired, slots, within, differ⟩
  have own := law cleric "spells" spells entry (by decide +kernel) rfl rfl
  exact differ ((List.forall₂_iff_zip.mp own).2 paired slots within)

end Sheet
end CharacterSheet
