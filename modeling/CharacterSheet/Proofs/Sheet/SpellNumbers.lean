import CharacterSheet.Proofs.Sheet.Turn

/-!
# Numbers of spells on the sheet

The tables of a class are gone through twice, once to define a variable for
each number and once to read the values of these variables back.  The first
time the positive numbers count, the second time those that are not at most
zero.  For a row without undefined numbers these are the same, and the
variables have been published in between.  So the sheet lists the spell levels
with a positive number, each with the value of its variable.  A spell level
with an undefined number is listed as well, but has no variable.
-/

namespace CharacterSheet

namespace LevelTable

/-- Some spell levels are those with a positive number in the row of a class
level, each once and in ascending order. -/
def Lists (table : LevelTable) (classLevel : Nat) (levels : List Nat) : Prop :=
  levels.Pairwise (· < ·) ∧
    ∀ level, level ∈ levels ↔ ∃ number, (table.row classLevel)[level]? = some number ∧ 0 < number

variable (table : LevelTable) (classLevel : Nat)

theorem mem_positives {entry : Nat × Float} :
    entry ∈ table.positives classLevel ↔
      (table.row classLevel)[entry.1]? = some entry.2 ∧ 0 < entry.2 := by
  rw [positives, List.mem_map]
  constructor
  · rintro ⟨⟨number, level⟩, counted, rfl⟩
    rcases List.mem_filter.mp counted with ⟨inRow, positive⟩
    exact ⟨List.mem_zipIdx_iff_getElem?.mp inRow, of_decide_eq_true positive⟩
  · rintro ⟨inRow, positive⟩
    exact ⟨(entry.2, entry.1), List.mem_filter.mpr
      ⟨List.mem_zipIdx_iff_getElem?.mpr inRow, decide_eq_true positive⟩, rfl⟩

/-- No number in the row of a class level is undefined. -/
def DefinedAt : Prop :=
  ∀ number ∈ table.row classLevel, number.isNaN = false

instance : Decidable (table.DefinedAt classLevel) :=
  inferInstanceAs (Decidable (∀ number ∈ table.row classLevel, number.isNaN = false))

theorem row_withRow (row : List Float) : (table.withRow classLevel row).row classLevel = row := by
  rw [LevelTable.row, row?, withRow, SortedMap.find?_insert_self, Option.getD_some]

/-- In such a row, what is not at most zero is positive. -/
theorem withoutEmpty_eq_positives (defined : table.DefinedAt classLevel) :
    table.withoutEmpty classLevel = table.positives classLevel := by
  rw [withoutEmpty, positives]
  refine congrArg (List.map _) (List.filter_congr fun entry member => ?_)
  rw [← decide_not, decide_eq_decide]
  exact Numeric.not_le_iff_lt (defined _ (List.fst_mem_of_mem_zipIdx member)) rfl

theorem lists_positives : table.Lists classLevel ((table.positives classLevel).map Prod.fst) := by
  constructor
  · have levels : (table.positives classLevel).map Prod.fst =
        ((table.row classLevel).zipIdx.filter fun entry => 0 < entry.1).map Prod.snd := by
      rw [positives, List.map_map]
      rfl
    have places : ((table.row classLevel).zipIdx.map Prod.snd).Pairwise (· < ·) := by
      rw [List.zipIdx_map_snd]
      exact List.pairwise_lt_range'
    rw [levels]
    exact places.sublist (List.filter_sublist.map Prod.snd)
  · intro level
    rw [List.mem_map]
    constructor
    · rintro ⟨entry, member, rfl⟩
      exact ⟨entry.2, (table.mem_positives classLevel).mp member⟩
    · rintro ⟨number, counted⟩
      exact ⟨(level, number), (table.mem_positives classLevel).mpr counted, rfl⟩

end LevelTable

namespace SpellTracks

/-- None of the numbers that a table has for the spell levels is undefined at a
class level. -/
structure DefinedAt (tracks : SpellTracks) (classLevel : Nat) : Prop where
  known : ∀ table, tracks.known = some (.perSpellLevel table) → table.DefinedAt classLevel
  slots : ∀ track ∈ tracks.tracks, track.slots.DefinedAt classLevel

/-- The same limits on known spells count both times then. -/
theorem DefinedAt.knownCounts {tracks : SpellTracks} {classLevel : Nat}
    (defined : tracks.DefinedAt classLevel) :
    tracks.knownCounts LevelTable.withoutEmpty classLevel =
      tracks.knownCounts LevelTable.positives classLevel := by
  rw [SpellTracks.knownCounts, SpellTracks.knownCounts]
  cases limit : tracks.known with
  | none => rfl
  | some given =>
    cases given with
    | unlimited | total => rfl
    | perSpellLevel table =>
      exact congrArg (List.map _) (table.withoutEmpty_eq_positives _ (defined.known table limit))

/-- The variables that are read are those that are defined, but for that of the
caster level. -/
theorem DefinedAt.map_id_definitions {tracks : SpellTracks} {classLevel : Nat}
    (defined : tracks.DefinedAt classLevel) :
    (tracks.definitions classLevel).map (·.id) =
      tracks.variablesRead classLevel ++ [⟨tracks.casterLevelVariable⟩] := by
  have slots : (tracks.tracks.flatMap fun track => track.slots.withoutEmpty classLevel) =
      tracks.tracks.flatMap fun track => track.slots.positives classLevel :=
    List.flatMap_congr fun track listed =>
      track.slots.withoutEmpty_eq_positives classLevel (defined.slots track listed)
  rw [definitions, variablesRead, defined.knownCounts, slots, List.map_append, List.map_append,
    List.map_map, List.map_map]
  rfl

/-- The key of the slots that are left is not the name of a number's
variable. -/
theorem currentSlotKey_ne (tracks : SpellTracks) (level : Nat) (start : String) :
    start ++ ".max" ≠ tracks.currentSlotKey level := by
  intro same
  have ends : (start ++ ".max").toList.getLast? =
      (tracks.currentSlotKey level).toList.getLast? := by
    rw [same]
  rw [currentSlotKey, String.toList_append, String.toList_append, List.getLast?_append,
    List.getLast?_append] at ends
  simp at ends

end SpellTracks

namespace SpellStat

/-- The numbers that are reported, each with its variable. -/
def numbers (spells : SpellStat) : List (VariableId × Float) :=
  spells.known.map (fun known => (spells.definition.knownVariable known.level, known.max)) ++
    (spells.tracks.flatMap (·.slots)).map fun slots =>
      (spells.definition.slotVariable slots.level, slots.max)

/-- The limits on known spells are listed for the spell levels that count, or
for all levels together if the row of the class level is not empty. -/
def ListsKnown (spells : SpellStat) : Prop :=
  match spells.definition.known with
  | some (.perSpellLevel table) =>
    ∃ levels, table.Lists spells.classLevel levels ∧
      spells.known.map (·.level) = levels.map some
  | some (.total table) =>
    spells.known.map (·.level) = (table.first? spells.classLevel).toList.map fun _ => none
  | some .unlimited | none => spells.known = []

/-- The tracks of the definition are listed with the spell levels that count. -/
def ListsSlots (spells : SpellStat) : Prop :=
  List.Forall₂
    (fun track listed => listed.id = track.id ∧ listed.label = track.label ∧
      track.slots.Lists spells.classLevel (listed.slots.map (·.level)))
    spells.definition.tracks spells.tracks

variable {spells : SpellStat}

theorem exists_name_of_mem_numbers {number : VariableId × Float}
    (member : number ∈ spells.numbers) : ∃ start, number.1.name = start ++ ".max" := by
  rcases List.mem_append.mp member with known | slots
  · rcases List.mem_map.mp known with ⟨⟨level, _⟩, _, rfl⟩
    cases level with
    | none => exact ⟨spells.definition.variableStart ++ ".known.total", by
        rw [String.append_assoc]; rfl⟩
    | some level => exact ⟨_, rfl⟩
  · rcases List.mem_map.mp slots with ⟨_, _, rfl⟩
    exact ⟨_, rfl⟩

/-- What is published for spells are the numbers and the slots that are
left. -/
theorem mem_published_iff {entry : String × Float} :
    entry ∈ spells.published ↔
      (∃ number ∈ spells.numbers, entry = (number.1.name, number.2)) ∨
        ∃ slots ∈ spells.tracks.flatMap (·.slots),
          entry = (spells.definition.currentSlotKey slots.level, slots.current) := by
  simp only [published, numbers, List.mem_append, List.mem_map, List.mem_flatMap,
    List.mem_cons, List.not_mem_nil, or_false]
  constructor
  · rintro (⟨known, listed, rfl⟩ | ⟨slots, within, rfl | rfl⟩)
    · exact Or.inl ⟨_, Or.inl ⟨known, listed, rfl⟩, rfl⟩
    · exact Or.inl ⟨_, Or.inr ⟨slots, within, rfl⟩, rfl⟩
    · exact Or.inr ⟨slots, within, rfl⟩
  · rintro (⟨_, ⟨known, listed, rfl⟩ | ⟨slots, within, rfl⟩, rfl⟩ | ⟨slots, within, rfl⟩)
    · exact Or.inl ⟨known, listed, rfl⟩
    · exact Or.inr ⟨slots, within, Or.inl rfl⟩
    · exact Or.inr ⟨slots, within, Or.inr rfl⟩

end SpellStat

namespace Calculation

variable {calculation : Calculation} {index : Index} {spells : SpellStat}

theorem mem_spellsOf_iff :
    spells ∈ calculation.spellsOf index ↔
      ∃ definition ∈ calculation.compiled.spellTracks,
        calculation.character.classLevel definition.classId ≠ 0 ∧
          spells = calculation.spellStat index definition
            (calculation.character.classLevel definition.classId) := by
  rw [spellsOf, List.mem_filterMap]
  refine exists_congr fun definition => and_congr_right fun _ => ?_
  cases calculation.character.classLevel definition.classId with
  | zero => simp
  | succ lower => simp [eq_comm]

section Defined

variable {definition : SpellTracks} {classLevel : Nat} (defined : definition.DefinedAt classLevel)

include defined

theorem listsKnown_spellStat :
    (calculation.spellStat index definition classLevel).ListsKnown := by
  unfold SpellStat.ListsKnown
  simp only [spellStat, SpellTracks.knownCounts]
  cases limit : definition.known with
  | none => rfl
  | some given =>
    cases given with
    | unlimited => rfl
    | total table => simp only [List.map_map]; rfl
    | perSpellLevel table =>
      refine ⟨_, table.lists_positives classLevel, ?_⟩
      simp only [table.withoutEmpty_eq_positives classLevel (defined.known table limit),
        List.map_map]
      rfl

theorem listsSlots_spellStat :
    (calculation.spellStat index definition classLevel).ListsSlots := by
  refine List.forall₂_map_right_iff.mpr
    (List.forall₂_same.mpr fun track member => ⟨rfl, rfl, ?_⟩)
  have levels : (trackStat index definition classLevel
        ((calculation.character.slots.find? definition.id).getD ⟨SortedMap.empty⟩)
        track).slots.map (·.level) = (track.slots.positives classLevel).map Prod.fst := by
    rw [trackStat, track.slots.withoutEmpty_eq_positives classLevel (defined.slots track member),
      List.map_map]
    rfl
  exact levels ▸ track.slots.lists_positives classLevel

end Defined

/-- The numbers that are reported are the final values of the variables that are
read. -/
theorem read_of_mem_numbers {definition : SpellTracks} {classLevel : Nat}
    {number : VariableId × Float}
    (listed : number ∈ (calculation.spellStat index definition classLevel).numbers) :
    number.1 ∈ definition.variablesRead classLevel ∧
      ∃ given, number.2 = finalValue index number.1 given := by
  rcases List.mem_append.mp listed with limit | slots
  · rcases List.mem_map.mp limit with ⟨_, counted, rfl⟩
    rcases List.mem_map.mp counted with ⟨entry, inTable, rfl⟩
    exact ⟨List.mem_append_left _ (List.mem_map_of_mem inTable), entry.2, rfl⟩
  · rcases List.mem_map.mp slots with ⟨_, counted, rfl⟩
    rcases List.mem_flatMap.mp counted with ⟨_, isTrack, within⟩
    rcases List.mem_map.mp isTrack with ⟨track, inDefinition, rfl⟩
    rcases List.mem_map.mp within with ⟨entry, inTable, rfl⟩
    exact ⟨List.mem_append_right _
      (List.mem_map_of_mem (List.mem_flatMap.mpr ⟨track, inDefinition, inTable⟩)), entry.2, rfl⟩

/-- If no number of the tables is undefined, all of these variables are
declared. -/
theorem mem_declaredIds_of_mem_numbers (member : spells ∈ calculation.spellsOf index)
    (defined : spells.definition.DefinedAt spells.classLevel) {number : VariableId × Float}
    (listed : number ∈ spells.numbers) : number.1 ∈ calculation.declaredIds := by
  rcases mem_spellsOf_iff.mp member with ⟨definition, known, levels, rfl⟩
  have ids : (definition.definitions _).map (·.id) = _ := SpellTracks.DefinedAt.map_id_definitions defined
  have read := List.mem_append_left [⟨definition.casterLevelVariable⟩]
    (read_of_mem_numbers listed).1
  rcases List.mem_map.mp (ids ▸ read) with ⟨_, declared, same⟩
  exact same ▸ mem_declaredIds_of_spellTracks known levels declared

/-- If its variable is published, a number is read back from it. -/
theorem get?_of_mem_numbers (member : spells ∈ calculation.spellsOf index)
    {number : VariableId × Float} (listed : number ∈ spells.numbers)
    (published : (index.get? number.1.indexKey).isSome = true) :
    index.get? number.1.indexKey = some number.2 := by
  rcases mem_spellsOf_iff.mp member with ⟨definition, -, -, rfl⟩
  rcases read_of_mem_numbers listed with ⟨-, given, isFinal⟩
  rcases Option.isSome_iff_exists.mp published with ⟨value, found⟩
  rw [isFinal, finalValue, found, Option.getD_some]

/-- It is published under the name of its variable, also where several classes
report numbers of one variable. -/
theorem get?_published_of_mem_numbers (member : spells ∈ calculation.spellsOf index)
    {number : VariableId × Float} (listed : number ∈ spells.numbers)
    (published : (index.get? number.1.indexKey).isSome = true) :
    (calculation.published index .spellTracks).get? number.1.name = some number.2 := by
  have itself := get?_of_mem_numbers member listed published
  refine SortedMap.find?_ofList_of_agree
    (List.mem_flatMap.mpr ⟨spells, member, SpellStat.mem_published_iff.mpr
      (Or.inl ⟨number, listed, rfl⟩)⟩) ?_
  intro other set
  rcases List.mem_flatMap.mp set with ⟨others, among, within⟩
  rcases SpellStat.mem_published_iff.mp within with ⟨rival, reported, same⟩ | ⟨slots, _, same⟩
  · have sameName := congrArg Prod.fst same
    have sameId : number.1 = rival.1 := congrArg VariableId.mk sameName
    have theirs := get?_of_mem_numbers among reported (sameId ▸ published)
    rw [← sameId, itself, Option.some_inj] at theirs
    exact (congrArg Prod.snd same).trans theirs.symm
  · rcases SpellStat.exists_name_of_mem_numbers listed with ⟨start, named⟩
    have sameKey : number.1.name = others.definition.currentSlotKey slots.level :=
      congrArg Prod.fst same
    exact absurd (named ▸ sameKey) (SpellTracks.currentSlotKey_ne _ _ _)

end Calculation

namespace Sheet

/-- If no number of the tables is undefined, the spells of a class are listed
with the spell levels that count.  A number that is reported is the value of its
variable, and stands under the name of the variable as well, unless the sheet
warns of a conflict about the name. -/
theorem spells_agree (character : Character) (config : Config)
    (valid : config.validate = .ok ()) (id : String) (spells : SpellStat)
    (entry : (calculate character config).statistics.spells.find? id = some spells)
    (defined : spells.definition.DefinedAt spells.classLevel) :
    let sheet := calculate character config
    .spellTracks spells.definition ∈ sheet.special ∧ spells.definition.id = id ∧
      spells.classLevel = character.classLevel spells.definition.classId ∧
      spells.ListsKnown ∧ spells.ListsSlots ∧
      ∀ number ∈ spells.numbers,
        sheet.index.get? number.1.indexKey = some number.2 ∧
          sheet.ShowsUnder number.1.name number.2 := by
  intro sheet
  rw [spells_calculate valid] at entry
  rcases List.mem_map.mp (SortedMap.mem_of_find?_ofList entry) with ⟨_, member, same⟩
  cases same
  rcases Calculation.mem_spellsOf_iff.mp member with ⟨definition, known, -, rfl⟩
  have special : .spellTracks definition ∈ sheet.special := by
    rcases List.mem_filterMap.mp known with ⟨change, listed, isTracks⟩
    cases change with
    | spellTracks _ =>
      cases isTracks
      exact listed
    | _ => cases isTracks
  refine ⟨special, rfl, rfl, Calculation.listsKnown_spellStat defined,
    Calculation.listsSlots_spellStat defined, fun number listed => ?_⟩
  have published : ((atTurn character config .spellTracks).index.get?
      number.1.indexKey).isSome = true :=
    isSome_get?_atTurn_spellTracks valid
      (Calculation.mem_declaredIds_of_mem_numbers member defined listed)
  have early := Calculation.get?_of_mem_numbers member listed published
  have final : sheet.index.get? number.1.indexKey = some number.2 := by
    rw [← early]
    exact get?_calculate_of_atTurn published
  have finite : Numeric.orZero number.2 = number.2 :=
    if_pos ((accounts_finished character config).index.isFinite final)
  refine ⟨final, ?_⟩
  rw [← finite]
  exact showsUnder_of_published valid
    (Calculation.get?_published_of_mem_numbers member listed published)

/-- The spells of a sorcerer with some numbers of slots on the first level. -/
def sorcererSpells (slots : List Float) : SpellTracks where
  id := "spells"
  classId := "sorcerer"
  variableStart := "sorcerer.spell"
  casterLevelVariable := "castingClassLevel.sorcerer"
  known := some (.perSpellLevel (LevelTable.empty.withRow 1 [4, 2]))
  tracks := [⟨"base", none, LevelTable.empty.withRow 1 slots⟩]

/-- A sorcerer of the first level, who knows one more spell of level one than
the table says. -/
def sorcerer (slots : List Float) : Character :=
  { Character.of "sample" with
    classes := [CharacterClass.of "sorcerer" "Sorcerer" 1]
    changes := [Change.of (.customVariable ⟨"sorcerer.spell.known.1.max"⟩) "1" BonusType.untyped]
    special := [.spellTracks (sorcererSpells slots)] }

theorem find?_spells_sorcerer (slots : List Float) :
    (calculate (sorcerer slots) Config.default).statistics.spells.find? "spells" =
      some ((calculation (sorcerer slots) Config.default).spellStat
        (atTurn (sorcerer slots) Config.default .spellTracks).index (sorcererSpells slots) 1) := by
  have tracks : (calculation (sorcerer slots) Config.default).compiled.spellTracks =
      [sorcererSpells slots] :=
    rfl
  have listed : ∀ index, (calculation (sorcerer slots) Config.default).spellsOf index =
      [(calculation (sorcerer slots) Config.default).spellStat index (sorcererSpells slots) 1] := by
    intro index
    rw [Calculation.spellsOf, tracks]
    rfl
  rw [spells_calculate rfl, Calculation.spells_eq, listed]
  exact SortedMap.find?_insert_self _ _ _

theorem spells_agree_sorcerer :
    Config.default.validate = .ok () ∧
      ∃ spells,
        (calculate (sorcerer [0, 3]) Config.default).statistics.spells.find? "spells" =
            some spells ∧
          spells.definition.DefinedAt spells.classLevel ∧
          (spells.numbers.map fun number => (number.1.name, number.2 == 3)) =
            [("sorcerer.spell.known.0.max", false), ("sorcerer.spell.known.1.max", true),
              ("sorcerer.spell.slot.1.max", true)] ∧
          ∀ number ∈ spells.numbers,
            (calculate (sorcerer [0, 3]) Config.default).index.get? number.1.indexKey =
              some number.2 := by
  have entry := find?_spells_sorcerer [0, 3]
  have defined : (sorcererSpells [0, 3]).DefinedAt 1 :=
    { known := fun table limit => by
        cases limit
        rw [LevelTable.DefinedAt, LevelTable.row_withRow]
        decide
      slots := fun track listed => by
        rw [List.mem_singleton.mp listed, LevelTable.DefinedAt, LevelTable.row_withRow]
        decide }
  have agree := spells_agree (sorcerer [0, 3]) Config.default rfl "spells" _ entry defined
  exact ⟨rfl, _, entry, defined, by decide +kernel,
    fun number listed => (agree.2.2.2.2.2 number listed).1⟩

/-- A row can hold an undefined number.  Its spell level is listed though the
number is not positive, and the number that is reported is not that of a
variable. -/
theorem not_spells_agree_undefined :
    Config.default.validate = .ok () ∧
      ∃ spells,
        (calculate (sorcerer [0, 0 / 0]) Config.default).statistics.spells.find? "spells" =
            some spells ∧
          ¬ spells.ListsSlots ∧
          ∃ number ∈ spells.numbers,
            number.1.name = "sorcerer.spell.slot.1.max" ∧
              (calculate (sorcerer [0, 0 / 0]) Config.default).index.get? number.1.indexKey =
                none := by
  refine ⟨rfl, _, find?_spells_sorcerer [0, 0 / 0], fun lists => ?_, ?_⟩
  · rcases lists with _ | ⟨⟨-, -, levels⟩, -⟩
    -- by evaluation the track lists level one and nothing else
    have listed : 1 ∈ [1] := List.mem_singleton_self 1
    rcases (levels.2 1).mp listed with ⟨number, inRow, positive⟩
    cases inRow
    exact absurd positive (by decide)
  · decide +kernel

end Sheet

end CharacterSheet
