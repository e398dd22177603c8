import CharacterSheet.Proofs.Phase.Order
import CharacterSheet.Proofs.Phase.Spells
import Mathlib.Data.List.Induction

/-!
# The order of phases makes no difference

If content names no key, a phase reads only keys that the phases it requires
have published before it, and keys that no other phase publishes.  A key keeps
its first value, so in its turn a phase sees what the index at the end holds
under the former, and nothing under the latter.  If moreover nothing is refused
along the way, every value that a phase publishes in its turn is the one at the
end.  Another order of the phases then cannot bring a different value in first:
by induction along that order, its index is part of the index at the end of the
first, and the other way around.

All of this holds up to the sign of zero, which no comparison of values sees.
-/

namespace CharacterSheet

namespace Statistics

/-- The same statistics, but no negative zero where numbers of spells are
handed on. -/
def unsigned (statistics : Statistics) : Statistics :=
  { statistics with spells := statistics.spells.mapValues fun _ => SpellStat.unsigned }

/-- The statistics with the result of one phase taken from others. -/
def take (results statistics : Statistics) : Phase → Statistics
  | .size => { statistics with size := results.size }
  | .abilityScores => { statistics with abilities := results.abilities }
  | .initiative => { statistics with initiative := results.initiative }
  | .speed => { statistics with speeds := results.speeds }
  | .hitPoints => { statistics with hitPoints := results.hitPoints }
  | .baseAttackBonus => { statistics with baseAttackBonus := results.baseAttackBonus }
  | .savingThrows => { statistics with savingThrows := results.savingThrows }
  | .armorClass => { statistics with armorClass := results.armorClass }
  | .skills => { statistics with skills := results.skills }
  | .customVariables => { statistics with customVariables := results.customVariables }
  | .spellTracks => { statistics with spells := results.spells }
  | .resources => { statistics with resources := results.resources }
  | .attacks => { statistics with attacks := results.attacks }

/-- Results of two phases stand in different places. -/
theorem take_take_of_ne {phase other : Phase} (different : other ≠ phase)
    (first second statistics : Statistics) :
    first.take (second.take statistics other) phase =
      second.take (first.take statistics phase) other := by
  cases phase <;> cases other <;> first | rfl | exact absurd rfl different

theorem unsigned_take (results statistics : Statistics) (phase : Phase) :
    (results.take statistics phase).unsigned = results.unsigned.take statistics.unsigned phase := by
  cases phase <;> rfl

end Statistics

namespace Index

/-- Every value of the first index stands in the second, up to the sign of
zero. -/
def PartOf (first second : Index) : Prop :=
  ∀ key, (first.get? key).isSome = true →
    (first.get? key).map Numeric.unsigned = (second.get? key).map Numeric.unsigned

/-- An index has the values that an update sets, up to the sign of zero. -/
def Update.AccordsWith (update : Update) (index : Index) : Prop :=
  ∀ key value, update.get? key = some value →
    (index.get? key).map Numeric.unsigned = some (Numeric.unsigned (Numeric.orZero value))

theorem Update.AccordsWith.congr {update other : Update} {index : Index}
    (accords : update.AccordsWith index) (same : other.unsigned = update.unsigned) :
    other.AccordsWith index := by
  intro key value set
  have found := congrArg (·.values.find? key) same
  simp only [Update.unsigned, SortedMap.find?_mapValues] at found
  unfold Update.get? at set
  rw [set, Option.map_some] at found
  rcases Option.map_eq_some_iff.mp found.symm with ⟨given, known, equal⟩
  rw [accords key given known, Numeric.unsigned_orZero equal]

/-- If an update goes in without being refused anything, its values are there
at the end. -/
theorem accordsWith_of_apply {index final : Index} {update : Update}
    (accepted : (index.apply update).2 = []) (part : (index.apply update).1.PartOf final) :
    update.AccordsWith final := by
  intro key value set
  have applied := get?_apply index update key
  rw [set, Option.map_some] at applied
  rw [← part key (by rw [applied, Option.isSome_or, Option.isSome_some, Bool.or_true]), applied]
  cases known : index.get? key with
  | none => rfl
  | some existing =>
    rw [conflicts_apply] at accepted
    have unrefused := List.filterMap_eq_nil_iff.mp accepted (key, value)
      (SortedMap.mem_toList_iff.mpr set)
    rw [refusal?, known] at unrefused
    dsimp only at unrefused
    by_cases same : (existing == Numeric.orZero value) = true
    · rw [Option.some_or, Option.map_some, Numeric.unsigned_eq_of_beq same]
    · rw [if_neg same] at unrefused
      cases unrefused

/-- Values that are there at the end do not bring anything else in, and are
refused nothing. -/
theorem partOf_apply {index final : Index} {update : Update} (part : index.PartOf final)
    (accords : update.AccordsWith final) :
    (index.apply update).1.PartOf final ∧ (index.apply update).2 = [] := by
  constructor
  · intro key known
    have applied := get?_apply index update key
    cases old : index.get? key with
    | some existing =>
      rw [applied, old, Option.some_or, ← old]
      exact part key (by rw [old]; rfl)
    | none =>
      rw [applied, old, Option.none_or] at known ⊢
      cases set : update.get? key with
      | none =>
        rw [set] at known
        cases known
      | some value => exact (accords key value set).symm
  · rw [conflicts_apply, List.filterMap_eq_nil_iff]
    rintro ⟨key, value⟩ member
    have final := accords key value (SortedMap.mem_toList_iff.mp member)
    rw [refusal?]
    cases old : index.get? key with
    | none => rfl
    | some existing =>
      have same := part key (by rw [old]; rfl)
      rw [old, final, Option.map_some, Option.some_inj] at same
      exact if_pos (Numeric.beq_of_unsigned_eq same (Numeric.isNaN_orZero value))

theorem unsigned_eq_of_partOf {first second : Index} (left : PartOf first second)
    (right : PartOf second first) : first.unsigned = second.unsigned := by
  refine congrArg Index.mk (SortedMap.ext_find? fun key => ?_)
  rw [SortedMap.find?_mapValues, SortedMap.find?_mapValues]
  cases known : first.get? key with
  | some value => exact left key (by rw [known]; rfl)
  | none =>
    cases other : second.get? key with
    | some value => exact (right key (by rw [other]; rfl)).symm
    | none =>
      unfold Index.get? at known other
      rw [known, other]

end Index

namespace Calculation

variable {calculation : Calculation}

/-- The results of all phases on one index. -/
def results (calculation : Calculation) (index : Index) : Statistics where
  abilities := (calculation.abilities index).value
  size := (calculation.size index).value
  initiative := (calculation.initiative index).value
  speeds := (calculation.speeds index).value
  hitPoints := (calculation.hitPoints index).value
  baseAttackBonus := (calculation.baseAttackBonus index).value
  savingThrows := (calculation.savingThrows index).value
  armorClass := (calculation.armorClass index).value
  skills := (calculation.skills index).value
  customVariables := (calculation.customVariables index).value
  spells := (calculation.spells index).value
  resources := (calculation.resources index).value
  attacks := (calculation.attacks index).value

variable (free : calculation.KeyFree) {first second : Index} {phase : Phase}
  (resemble : Index.ResembleOn (calculation.reads phase) first second)

include free resemble

theorem unsigned_published :
    (calculation.published first phase).unsigned =
      (calculation.published second phase).unsigned := by
  cases phase with
  | size => rw [published, published, size_congr free]
  | abilityScores => rw [published, published, abilities_congr free]
  | initiative => exact (initiative_congr free resemble).2
  | speed => rw [published, published, speeds_congr free]
  | hitPoints => rw [published, published, hitPoints_congr free resemble]
  | baseAttackBonus => rw [published, published, baseAttackBonus_congr free resemble]
  | savingThrows => rw [published, published, savingThrows_congr free resemble]
  | armorClass => rw [published, published, armorClass_congr free resemble]
  | skills => rw [published, published, skills_congr free resemble]
  | customVariables => rw [published, published, free.customVariables first second]
  | spellTracks => exact (spells_congr resemble).2
  | resources => rw [published, published, free.resources first second]
  | attacks => rw [published, published, attacks_congr free resemble]

theorem unsigned_results (statistics : Statistics) :
    (calculation.results first).unsigned.take statistics phase =
      (calculation.results second).unsigned.take statistics phase := by
  unfold Statistics.take Statistics.unsigned results
  cases phase with
  | size => dsimp only; rw [size_congr free]
  | abilityScores => dsimp only; rw [abilities_congr free]
  | initiative => dsimp only; rw [(initiative_congr free resemble).1]
  | speed => dsimp only; rw [speeds_congr free]
  | hitPoints => dsimp only; rw [hitPoints_congr free resemble]
  | baseAttackBonus => dsimp only; rw [baseAttackBonus_congr free resemble]
  | savingThrows => dsimp only; rw [savingThrows_congr free resemble]
  | armorClass => dsimp only; rw [armorClass_congr free resemble]
  | skills => dsimp only; rw [skills_congr free resemble]
  | customVariables => dsimp only; rw [free.customVariables first second]
  | spellTracks => dsimp only; rw [(spells_congr resemble).1]
  | resources => dsimp only; rw [free.resources first second]
  | attacks => dsimp only; rw [attacks_congr free resemble]

end Calculation

namespace Progress

theorem statistics_publish (progress : Progress) (update : Index.Update) :
    (progress.publish update).statistics = progress.statistics := by
  unfold publish
  cases progress.index.apply update
  rfl

theorem statistics_run (calculation : Calculation) (progress : Progress) (phase : Phase) :
    (run calculation progress phase).statistics =
      (calculation.results progress.index).take progress.statistics phase := by
  cases phase <;> exact statistics_publish _ _

variable {calculation : Calculation} {start : Progress} {order : List Phase}

theorem get?_runAll {progress : Progress} {key : String}
    (known : (progress.index.get? key).isSome = true) (phases : List Phase) :
    (runAll calculation progress phases).index.get? key = progress.index.get? key := by
  induction phases generalizing progress with
  | nil => rfl
  | cons phase rest inductionHypothesis =>
    have kept : (run calculation progress phase).index.get? key = progress.index.get? key := by
      rw [index_run, Index.get?_apply]
      exact Option.or_of_isSome known
    exact (inductionHypothesis (by rwa [kept])).trans kept

theorem partOf_runAll (progress : Progress) (phases : List Phase) :
    progress.index.PartOf (runAll calculation progress phases).index := by
  intro key known
  rw [get?_runAll known]

theorem runAll_append (progress : Progress) (before after : List Phase) :
    runAll calculation progress (before ++ after) =
      runAll calculation (runAll calculation progress before) after :=
  List.foldl_append

theorem runAll_concat (progress : Progress) (before : List Phase) (phase : Phase) :
    runAll calculation progress (before ++ [phase]) =
      run calculation (runAll calculation progress before) phase :=
  runAll_append progress before [phase]

theorem warnings_runAll (calculation : Calculation) (progress : Progress) (phases : List Phase) :
    progress.warnings <+: (runAll calculation progress phases).warnings := by
  induction phases generalizing progress with
  | nil => exact List.prefix_rfl
  | cons phase rest inductionHypothesis =>
    refine List.IsPrefix.trans ?_ (inductionHypothesis (run calculation progress phase))
    rw [warnings_run, List.append_assoc]
    exact List.prefix_append _ _

/-- The calculation when it is the turn of a phase in an order. -/
def atTurn (calculation : Calculation) (start : Progress) (order : List Phase) (phase : Phase) :
    Progress :=
  runAll calculation start (order.takeWhile (· != phase))

theorem runAll_of_split (runnable : Phase.Runnable order) (start : Progress)
    {before after : List Phase} {phase : Phase} (split : order = before ++ phase :: after) :
    runAll calculation start before = atTurn calculation start order phase := by
  rw [atTurn, (runnable.takeWhile_of_split split).1]

/-- From there the phase and those behind it run. -/
theorem runAll_atTurn (start : Progress) (order : List Phase) (phase : Phase) :
    runAll calculation (atTurn calculation start order phase) (order.dropWhile (· != phase)) =
      runAll calculation start order := by
  rw [atTurn, ← runAll_append, List.takeWhile_append_dropWhile]

theorem partOf_atTurn (start : Progress) (order : List Phase) (phase : Phase) :
    (atTurn calculation start order phase).index.PartOf (runAll calculation start order).index := by
  rw [← runAll_atTurn start order phase]
  exact partOf_runAll _ _

/-- In its turn a phase finds what the phases that it requires publish on every
index. -/
theorem isSome_get?_atTurn (runnable : Phase.Runnable order) (start : Progress)
    {phase required : Phase} (listed : required ∈ phase.requires) {key : String}
    (publishes : calculation.Publishes required key) :
    ((atTurn calculation start order phase).index.get? key).isSome = true := by
  rcases runnable.exists_split phase with ⟨after, split, -⟩
  rcases List.append_of_mem (runnable.respects _ phase after split listed) with
    ⟨earlier, later, before⟩
  let reached := runAll calculation start earlier
  have published : ((run calculation reached required).index.get? key).isSome = true := by
    rw [index_run, Index.get?_apply, Option.isSome_or, Option.isSome_map, publishes,
      Bool.or_true]
  rw [atTurn, before, runAll_append]
  exact (get?_runAll published later).symm ▸ published

/-- What no other phase publishes is in the turn of a phase what it was at the
start. -/
theorem get?_atTurn_of_withholds {start : Progress} {phase : Phase} {key : String}
    (withheld : ∀ other ≠ phase, calculation.Withholds other key) (order : List Phase) :
    (atTurn calculation start order phase).index.get? key = start.index.get? key := by
  cases known : start.index.get? key with
  | none =>
    refine get?_runAll_eq_none known fun other earlier => withheld other ?_
    rintro rfl
    exact Phase.notMem_takeWhile order other earlier
  | some value =>
    have stays : (start.index.get? key).isSome = true := known ▸ rfl
    exact (get?_runAll stays _).trans known

/-- So a phase reads the same in two orders, if what is there in its turn agrees
with one index. -/
theorem resembleOn_atTurn (runnable : Phase.Runnable order) {other : List Phase}
    (runnableOther : Phase.Runnable other) {phase : Phase} {final : Index}
    (part : (atTurn calculation start order phase).index.PartOf final)
    (partOther : (atTurn calculation start other phase).index.PartOf final) :
    Index.ResembleOn (calculation.reads phase) (atTurn calculation start order phase).index
      (atTurn calculation start other phase).index := by
  intro key member
  rcases Calculation.publishes_or_withholds_of_mem_reads member with
    ⟨required, listed, publishes⟩ | withheld
  · rw [part key (isSome_get?_atTurn runnable start listed publishes),
      partOther key (isSome_get?_atTurn runnableOther start listed publishes)]
  · rw [get?_atTurn_of_withholds withheld, get?_atTurn_of_withholds withheld]

/-- If nothing is refused in a run, the index at the end has all values that a
phase publishes in its turn. -/
theorem accordsWith_runAll (runnable : Phase.Runnable order)
    (quiet : (runAll calculation start order).warnings.filterMap SheetWarning.conflict? = [])
    (phase : Phase) :
    (calculation.published (atTurn calculation start order phase).index phase).AccordsWith
      (runAll calculation start order).index := by
  rcases runnable.exists_split phase with ⟨after, split, -⟩
  let reached := atTurn calculation start order phase
  have rest : runAll calculation start order =
      runAll calculation (run calculation reached phase) after := by
    conv_lhs => rw [split, runAll_append]
    rfl
  have accepted : (reached.index.apply (calculation.published reached.index phase)).2 = [] := by
    have grown := (warnings_runAll calculation (run calculation reached phase) after).filterMap
      SheetWarning.conflict?
    rw [← rest, quiet, warnings_run, List.filterMap_append,
      SheetWarning.filterMap_conflict?_map] at grown
    exact (List.append_eq_nil_iff.mp (List.prefix_nil.mp grown)).2
  have part : (run calculation reached phase).index.PartOf
      (runAll calculation start order).index := by
    rw [rest]
    exact partOf_runAll _ _
  rw [index_run] at part
  exact Index.accordsWith_of_apply accepted part

/-- Another order of the phases brings nothing else in, and nothing is
refused. -/
theorem partOf_of_reorder (free : calculation.KeyFree) (runnable : Phase.Runnable order)
    (quiet : (runAll calculation start order).warnings.filterMap SheetWarning.conflict? = [])
    {other : List Phase} (runnableOther : Phase.Runnable other)
    {before after : List Phase} (split : other = before ++ after) :
    (runAll calculation start before).index.PartOf (runAll calculation start order).index ∧
      (runAll calculation start before).warnings = start.warnings := by
  induction before using List.reverseRecOn generalizing after with
  | nil => exact ⟨partOf_runAll start order, rfl⟩
  | append_singleton earlier phase inductionHypothesis =>
    rw [List.append_assoc, List.singleton_append] at split
    rcases inductionHypothesis split with ⟨part, warnings⟩
    rw [runAll_concat]
    rw [runAll_of_split runnableOther start split] at part warnings ⊢
    -- The phase reads here what it reads in the first order, so it publishes the same.
    have reads := resembleOn_atTurn runnableOther runnable part (partOf_atTurn start order phase)
    have accords := (accordsWith_runAll runnable quiet phase).congr
      (Calculation.unsigned_published free reads)
    have applied := Index.partOf_apply part accords
    have reported : calculation.reported (atTurn calculation start other phase).index phase =
        [] := by
      cases phase with
      | customVariables => exact free.warnings_customVariables _
      | _ => rfl
    constructor
    · rw [index_run]
      exact applied.1
    · rw [warnings_run, reported, applied.2, warnings, List.append_nil, List.map_nil,
        List.append_nil]

/-- The statistics of a run are the results that the phases have in their
turns. -/
theorem unsigned_statistics_runAll (runnable : Phase.Runnable order) (start : Progress)
    {before after : List Phase} (split : order = before ++ after) :
    (runAll calculation start before).statistics.unsigned =
      before.foldl (fun statistics phase =>
          (calculation.results (atTurn calculation start order phase).index).unsigned.take
            statistics phase)
        start.statistics.unsigned := by
  induction before using List.reverseRecOn generalizing after with
  | nil => rfl
  | append_singleton earlier phase inductionHypothesis =>
    rw [List.append_assoc, List.singleton_append] at split
    rw [runAll_concat, statistics_run, Statistics.unsigned_take, inductionHypothesis split,
      runAll_of_split runnable start split, List.foldl_append]
    rfl

/-- Two orders of the phases lead to the same statistics, values and warnings,
up to the sign of zero, if nothing is refused in the first. -/
theorem runAll_reorder (free : calculation.KeyFree) (runnable : Phase.Runnable order)
    (quiet : (runAll calculation start order).warnings.filterMap SheetWarning.conflict? = [])
    {other : List Phase} (runnableOther : Phase.Runnable other) :
    (runAll calculation start order).statistics.unsigned =
        (runAll calculation start other).statistics.unsigned ∧
      (runAll calculation start order).index.unsigned =
        (runAll calculation start other).index.unsigned ∧
      (runAll calculation start order).warnings = (runAll calculation start other).warnings := by
  have whole : ∀ phases : List Phase, phases = phases ++ [] := fun phases =>
    (List.append_nil phases).symm
  have itself := partOf_of_reorder free runnable quiet runnable (whole order)
  have there := partOf_of_reorder free runnable quiet runnableOther (whole other)
  have sameWarnings := itself.2.trans there.2.symm
  have back := partOf_of_reorder free runnableOther (sameWarnings ▸ quiet) runnable (whole order)
  refine ⟨?_, Index.unsigned_eq_of_partOf back.1 there.1, sameWarnings⟩
  have sameResults : ∀ (statistics : Statistics) (phase : Phase),
      (calculation.results (atTurn calculation start order phase).index).unsigned.take
          statistics phase =
        (calculation.results (atTurn calculation start other phase).index).unsigned.take
          statistics phase := by
    intro statistics phase
    have part := partOf_of_reorder free runnable quiet runnableOther
      (List.takeWhile_append_dropWhile (p := (· != phase))).symm
    exact Calculation.unsigned_results free
      (resembleOn_atTurn runnable runnableOther (partOf_atTurn start order phase) part.1) statistics
  rw [unsigned_statistics_runAll runnable start (whole order),
    unsigned_statistics_runAll runnableOther start (whole other)]
  simp only [sameResults]
  refine (runnable.perm.trans runnableOther.perm.symm).foldl_eq' (fun phase _ next _ _ => ?_) _
  by_cases same : phase = next
  · rw [same]
  · exact Statistics.take_take_of_ne same _ _ _

end Progress

namespace Sheet

/-- The same sheet, but no negative zero among the published values and the
numbers of spells. -/
def unsigned (sheet : Sheet) : Sheet :=
  { sheet with statistics := sheet.statistics.unsigned, index := sheet.index.unsigned }

theorem keyFree_calculation {character : Character} (free : character.KeyFree) (config : Config) :
    (calculation character config).KeyFree :=
  Calculation.keyFree_ofCharacter free List.filter_sublist.subset config.bonusTypes

/-- If content names no key, valid orders of the phases give the same sheet, up
to the sign of zero, provided that one of them gives rise to no conflict. -/
theorem calculate_reorder (character : Character) (first second : Config)
    (free : character.KeyFree) (sameTable : first.bonusTypes = second.bonusTypes)
    (validFirst : first.validate = .ok ()) (validSecond : second.validate = .ok ())
    (quiet : (calculate character first).warnings.filterMap SheetWarning.conflict? = []) :
    (calculate character first).unsigned = (calculate character second).unsigned := by
  have sameStart : start character first = start character second := by
    rw [start, start, orderWarnings, orderWarnings, validFirst, validSecond]
  have sameCalculation : calculation character first = calculation character second := by
    rw [calculation, calculation, sameStart, sameTable]
  have sameBefore : beforePhases character first = beforePhases character second := by
    rw [beforePhases, beforePhases, sameStart, sameCalculation]
  have quietRun : (Progress.runAll (calculation character first) (beforePhases character first)
      first.phaseOrder).warnings.filterMap SheetWarning.conflict? = [] :=
    quiet
  have same := Progress.runAll_reorder (keyFree_calculation free first)
    (Config.runnable_of_validate validFirst) quietRun (Config.runnable_of_validate validSecond)
  rw [calculate_eq, calculate_eq, ← sameStart, ← sameCalculation, ← sameBefore]
  dsimp only [unsigned]
  rw [same.1, same.2.1, same.2.2]

/-- A character with a bonus to initiative. -/
def alert : Character :=
  { Character.of "sample" with changes := [Change.of .initiative "2 * 2" BonusType.untyped] }

/-- An order of phases that is far from the default one. -/
def abilitiesFirst : Config :=
  { Config.default with
    phaseOrder := [.abilityScores, .customVariables, .size, .resources, .initiative, .skills,
      .savingThrows, .hitPoints, .speed, .armorClass, .spellTracks, .baseAttackBonus, .attacks] }

theorem calculate_reorder_alert :
    alert.KeyFree ∧ Config.default.bonusTypes = abilitiesFirst.bonusTypes ∧
      Config.default.validate = .ok () ∧ abilitiesFirst.validate = .ok () ∧
      (calculate alert Config.default).warnings.filterMap SheetWarning.conflict? = [] ∧
      (calculate alert Config.default).unsigned = (calculate alert abilitiesFirst).unsigned := by
  have free : alert.KeyFree := by
    unfold Character.KeyFree
    decide +kernel
  have valid : Config.default.validate = .ok () := rfl
  have validOther : abilitiesFirst.validate = .ok () := rfl
  have quiet :
      (calculate alert Config.default).warnings.filterMap SheetWarning.conflict? = [] := by
    rw [← List.isEmpty_iff]
    decide +kernel
  exact ⟨free, rfl, valid, validOther, quiet,
    calculate_reorder alert Config.default abilitiesFirst free rfl valid validOther quiet⟩

end Sheet

end CharacterSheet
