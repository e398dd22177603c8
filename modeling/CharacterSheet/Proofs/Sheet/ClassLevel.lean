import CharacterSheet.Proofs.Numeric.Scientific
import CharacterSheet.Proofs.Sheet.SpellNumbers

/-!
# Levels in classes

A class can stand in the list of classes more than once.  The level in the class
is the sum of the levels of its entries, and by that sum the spells of the class
are resolved.  The key of the class, which formulas read, holds the level of its
last entry alone.  Both are the same number if no other entry has a level.

Levels and their sums are kept in 32 bits.  A greater sum overflows there, so
nothing is claimed for it, although the definitions go on with the exact sum.
-/

namespace CharacterSheet

namespace Character

/-- The levels of the entries of a class, in order. -/
def levelsIn (character : Character) (id : String) : List Nat :=
  (character.classes.filter (·.id == id)).map (·.level)

theorem classLevel_eq_sum (character : Character) (id : String) :
    character.classLevel id = (character.levelsIn id).sum := by
  rw [classLevel, levelsIn, List.sum_eq_foldl, List.foldl_map]

theorem levelsIn_ne_nil_iff {character : Character} {id : String} :
    character.levelsIn id ≠ [] ↔ id ∈ character.classes.map (·.id) := by
  simp [levelsIn]

end Character

namespace Statistics

/-- The spells of every class are resolved by the level of a character in it. -/
def SpellsFollow (statistics : Statistics) (character : Character) : Prop :=
  ∀ id spells, statistics.spells.find? id = some spells →
    spells.classLevel = character.classLevel spells.definition.classId

end Statistics

namespace Progress

variable {calculation : Calculation} {progress : Progress}

/-- Only one phase reports spells, and it resolves them by the level. -/
theorem spellsFollow_run (follow : progress.statistics.SpellsFollow calculation.character)
    (phase : Phase) :
    (run calculation progress phase).statistics.SpellsFollow calculation.character := by
  rw [statistics_run]
  unfold Statistics.SpellsFollow Statistics.take
  cases phase with
  | spellTracks =>
    intro id spells found
    rw [Calculation.results, Calculation.spells_eq] at found
    rcases List.mem_map.mp (SortedMap.mem_of_find?_ofList found) with ⟨_, listed, same⟩
    cases same
    rcases Calculation.mem_spellsOf_iff.mp listed with ⟨definition, -, -, rfl⟩
    rfl
  | _ => exact follow

theorem spellsFollow_runAll (follow : progress.statistics.SpellsFollow calculation.character)
    (phases : List Phase) :
    (runAll calculation progress phases).statistics.SpellsFollow calculation.character := by
  induction phases generalizing progress with
  | nil => exact follow
  | cons phase rest inductionHypothesis => exact inductionHypothesis (spellsFollow_run follow phase)

end Progress

namespace Sheet

/-- The key of the level in a class. -/
def levelKey (id : String) : String :=
  "class." ++ id ++ ".level"

theorem levelKey_inj {first second : String} :
    levelKey first = levelKey second ↔ first = second := by
  refine ⟨fun same => ?_, congrArg levelKey⟩
  have characters := congrArg String.toList same
  rw [levelKey, levelKey, String.toList_append, String.toList_append, String.toList_append,
    String.toList_append] at characters
  exact String.toList_inj.mp (List.append_cancel_left (List.append_cancel_right characters))

/-- The keys of the level as a whole are other ones. -/
theorem levelKey_notMem (id : String) :
    levelKey id ∉ ["level", "casterLevel", "hd.base", "hd.total"] := by
  have starts : "class.".toList <+: (levelKey id).toList := by
    rw [levelKey, String.toList_append, String.toList_append, List.append_assoc]
    exact List.prefix_append _ _
  have others : ∀ key ∈ ["level", "casterLevel", "hd.base", "hd.total"],
      ¬ "class.".toList <+: key.toList := by decide
  exact fun listed => others _ listed starts

/-- Of the entries of a class the last one sets the key. -/
theorem get?_levelValues (character : Character) (id : String) :
    (levelValues character).get? (levelKey id) =
      (character.levelsIn id).getLast?.map Float.ofNat := by
  have found : (levelValues character).get? (levelKey id) = _ :=
    SortedMap.find?_ofList_eq_getLast? _ _
  have whole (level : Float) :
      ([("level", level), ("casterLevel", level), ("hd.base", level), ("hd.total", level)].filter
        fun entry => levelKey id == entry.1) = [] := by
    rw [List.filter_eq_nil_iff]
    intro entry listed same
    have key := List.mem_map_of_mem (f := Prod.fst) listed
    rw [← beq_iff_eq.mp same] at key
    exact levelKey_notMem id key
  have entries : ((character.classes.map fun taken =>
      (levelKey taken.id, Float.ofNat taken.level)).filter
        fun entry => levelKey id == entry.1).map Prod.snd =
          (character.levelsIn id).map Float.ofNat := by
    rw [List.filter_map, List.map_map, Character.levelsIn, List.map_map]
    refine congrArg (List.map _) (List.filter_congr fun taken _ => ?_)
    rw [Function.comp_apply, Bool.eq_iff_iff, beq_iff_eq, beq_iff_eq, levelKey_inj, eq_comm]
  rw [found, List.filter_append, whole, List.nil_append, ← List.getLast?_map, ← entries]
  rfl

/-- It keeps the value through all phases. -/
theorem get?_levelKey {character : Character} {id : String}
    (taken : id ∈ character.classes.map (·.id)) (config : Config) :
    (calculate character config).index.get? (levelKey id) =
      (character.levelsIn id).getLast?.map (Numeric.orZero ∘ Float.ofNat) := by
  have started : (beforePhases character config).index.get? (levelKey id) =
      (character.levelsIn id).getLast?.map (Numeric.orZero ∘ Float.ofNat) := by
    change (start character config).index.get? (levelKey id) = _
    rw [start, Progress.index_publish, Index.get?_apply, get?_levelValues, Option.map_map]
    rfl
  have known : ((beforePhases character config).index.get? (levelKey id)).isSome = true := by
    rw [started, Option.isSome_map, List.getLast?_isSome]
    exact Character.levelsIn_ne_nil_iff.mpr taken
  exact (Progress.get?_runAll known config.phaseOrder).trans started

/-- The key of a class holds the level of the character in it. -/
def LevelKeyAgrees (character : Character) (config : Config) (id : String) : Prop :=
  (calculate character config).index.get? (levelKey id) =
    some (Float.ofNat (character.classLevel id))

/-- The key of a class holds the level by which the spells of the class are
resolved if and only if all entries of the class but the last have level zero.
The levels have a sum of at most 32 bits. -/
theorem levelKeyAgrees_iff (character : Character) (config : Config) (id : String)
    (taken : id ∈ character.classes.map (·.id)) (fits : character.classLevel id < 2 ^ 32) :
    (LevelKeyAgrees character config id ↔
      ∀ level ∈ (character.levelsIn id).dropLast, level = 0) ∧
    ∀ name spells, (calculate character config).statistics.spells.find? name = some spells →
      spells.definition.classId = id → spells.classLevel = character.classLevel id := by
  constructor
  · rcases List.eq_nil_or_concat' (character.levelsIn id) with none | ⟨early, last, split⟩
    · exact absurd none (Character.levelsIn_ne_nil_iff.mpr taken)
    · have total := character.classLevel_eq_sum id
      rw [split, List.sum_append, List.sum_singleton] at total
      have small : last < 2 ^ 53 := by omega
      have exact : character.classLevel id < 2 ^ 53 := by omega
      rw [LevelKeyAgrees, get?_levelKey taken, split, List.getLast?_concat, Option.map_some,
        Function.comp_apply, Numeric.orZero_ofNat small, Option.some_inj,
        Numeric.ofNat_inj small exact, total, List.dropLast_concat, right_eq_add,
        List.sum_eq_zero_iff]
  · rintro name spells found rfl
    have empty : (beforePhases character config).statistics.SpellsFollow character := by
      intro name spells found
      change SortedMap.empty.find? name = some spells at found
      rw [SortedMap.find?_empty] at found
      cases found
    have follow : (calculate character config).statistics.SpellsFollow character :=
      Progress.spellsFollow_runAll empty config.phaseOrder
    exact follow name spells found

/-- A wizard who has returned to that class after a level as a rogue. -/
def returned (before : Nat) : Character :=
  { Character.of "sample" with
    classes :=
      [CharacterClass.of "wizard" "Wizard" before, CharacterClass.of "rogue" "Rogue" 1,
        CharacterClass.of "wizard" "Wizard" 3]
    special := [.spellTracks
      { id := "spells"
        classId := "wizard"
        variableStart := "wizard.spell"
        casterLevelVariable := "castingClassLevel.wizard"
        known := none
        tracks := [⟨"base", none, LevelTable.empty.withRow 5 [4]⟩] }] }

theorem levelKeyAgrees_iff_returned :
    "wizard" ∈ (returned 0).classes.map (·.id) ∧ (returned 0).classLevel "wizard" < 2 ^ 32 ∧
      LevelKeyAgrees (returned 0) Config.default "wizard" :=
  have taken : "wizard" ∈ (returned 0).classes.map (·.id) := by decide
  have fits : (returned 0).classLevel "wizard" < 2 ^ 32 := by decide
  ⟨taken, fits,
    (levelKeyAgrees_iff (returned 0) Config.default "wizard" taken fits).1.mpr (by decide)⟩

/-- The two levels before are lost on the key, but not for the spells. -/
theorem not_levelKeyAgrees_returned :
    "wizard" ∈ (returned 2).classes.map (·.id) ∧ (returned 2).classLevel "wizard" = 5 ∧
      ((calculate (returned 2) Config.default).statistics.spells.find? "spells").map
        (·.classLevel) = some 5 ∧
      (calculate (returned 2) Config.default).index.get? (levelKey "wizard") =
        some (Float.ofNat 3) ∧
      ¬ LevelKeyAgrees (returned 2) Config.default "wizard" := by
  have taken : "wizard" ∈ (returned 2).classes.map (·.id) := by decide
  have held : (calculate (returned 2) Config.default).index.get? (levelKey "wizard") =
      some (Float.ofNat 3) := by
    have levels : (returned 2).levelsIn "wizard" = [2, 3] := by decide
    rw [get?_levelKey taken, levels]
    exact congrArg some (Numeric.orZero_ofNat (by decide))
  have resolved : ((calculate (returned 2) Config.default).statistics.spells.find? "spells").map
      (·.classLevel) = some 5 := by
    rw [spells_calculate rfl]
    rfl
  refine ⟨taken, by decide, resolved, held, fun agrees => ?_⟩
  have same := Option.some_inj.mp (held.symm.trans agrees)
  exact absurd ((Numeric.ofNat_inj (by decide) (by decide)).mp same) (by decide)

end Sheet
end CharacterSheet
