import CharacterSheet.Proofs.Index.Publishing
import CharacterSheet.Proofs.Numeric.Zero
import CharacterSheet.Sheet

/-!
# What a sheet publishes

A run of a sheet applies one update after another: that of the levels, then
that of each phase, computed on the index that the updates before it have made.
The index at the end is determined by the updates alone.  A key has the first
value that an update sets for it, made finite, and the warnings list, in order,
every later entry of an update that differs from that value.
-/

namespace CharacterSheet

namespace Index

/-- The value that the first of some updates to set a key sets for it. -/
def firstSet? (updates : List Update) (key : String) : Option Float :=
  updates.findSome? fun update => update.get? key

/-- The conflict of an entry with the value that some earlier updates set for
its key.  There is none if they do not set the key, or to an equal number. -/
def disagreement? (earlier : List Update) (entry : String × Float) : Option Conflict :=
  match firstSet? earlier entry.1 with
  | none => none
  | some first =>
    if Numeric.orZero first == Numeric.orZero entry.2 then none
    else some ⟨entry.1, Numeric.orZero first, Numeric.orZero entry.2⟩

/-- The conflicts of some updates with those before them, update by update and
in key order within each. -/
def disagreements (earlier : List Update) : List Update → List Conflict
  | [] => []
  | update :: later =>
    update.values.toList.filterMap (disagreement? earlier) ++
      disagreements (earlier ++ [update]) later

/-- An index holds what some updates set: for each key the first value, made
finite. -/
def HoldsFirst (index : Index) (updates : List Update) : Prop :=
  ∀ key, index.get? key = (firstSet? updates key).map Numeric.orZero

theorem disagreements_append (earlier updates later : List Update) :
    disagreements earlier (updates ++ later) =
      disagreements earlier updates ++ disagreements (earlier ++ updates) later := by
  induction updates generalizing earlier with
  | nil => simp [disagreements]
  | cons update rest inductionHypothesis =>
    rw [List.cons_append, disagreements, disagreements, inductionHypothesis,
      List.append_assoc, List.append_assoc, List.singleton_append]

theorem holdsFirst_empty : HoldsFirst empty [] := by
  intro key
  rfl

/-- Applying one more update keeps what the updates before it have set. -/
theorem HoldsFirst.apply {index : Index} {updates : List Update}
    (holds : HoldsFirst index updates) (update : Update) :
    HoldsFirst (index.apply update).1 (updates ++ [update]) := by
  intro key
  rw [get?_apply, holds key]
  unfold firstSet?
  rw [List.findSome?_append, List.findSome?_singleton]
  cases updates.findSome? fun update => update.get? key <;> rfl

/-- What is refused is what disagrees with the updates before. -/
theorem HoldsFirst.conflicts {index : Index} {updates : List Update}
    (holds : HoldsFirst index updates) (update : Update) :
    (index.apply update).2 = update.values.toList.filterMap (disagreement? updates) := by
  rw [conflicts_apply]
  apply List.filterMap_congr
  intro entry _
  unfold refusal? disagreement?
  rw [holds entry.1]
  cases firstSet? updates entry.1 <;> rfl

/-- Every value of such an index is finite. -/
theorem HoldsFirst.isFinite {index : Index} {updates : List Update}
    (holds : HoldsFirst index updates) {key : String} {value : Float}
    (stored : index.get? key = some value) : value.isFinite = true := by
  rw [holds key] at stored
  rcases Option.map_eq_some_iff.mp stored with ⟨first, _, finite⟩
  rw [← finite]
  exact Numeric.isFinite_orZero first

/-- A value that one of the updates sets is what such an index holds, unless it
disagrees with a value set before. -/
theorem HoldsFirst.stored {index : Index} {updates : List Update}
    (holds : HoldsFirst index updates) {update : Update} (applied : update ∈ updates)
    {key : String} {value : Float} (set : update.get? key = some value) :
    ∃ stored, index.get? key = some stored ∧
      ((stored == Numeric.orZero value) = true ∨
        ∃ conflict ∈ disagreements [] updates, conflict.key = key) := by
  rcases List.append_of_mem applied with ⟨before, after, rfl⟩
  have entry : (key, value) ∈ update.values.toList := SortedMap.mem_toList_iff.mpr set
  rw [holds key, firstSet?, List.findSome?_append, List.findSome?_cons, set]
  cases early : before.findSome? fun update => update.get? key with
  | none => exact ⟨_, rfl, Or.inl (Numeric.beq_self (Numeric.isNaN_orZero value))⟩
  | some first =>
    refine ⟨_, rfl, ?_⟩
    by_cases same : (Numeric.orZero first == Numeric.orZero value) = true
    · exact Or.inl same
    · refine Or.inr ⟨⟨key, Numeric.orZero first, Numeric.orZero value⟩, ?_, rfl⟩
      rw [disagreements_append]
      refine List.mem_append_right _ (List.mem_append_left _ (List.mem_filterMap.mpr
        ⟨(key, value), entry, ?_⟩))
      rw [disagreement?, List.nil_append, firstSet?, early]
      exact if_neg same

end Index

namespace SheetWarning

/-- The conflict that a warning tells of, if it tells of one. -/
def conflict? : SheetWarning → Option Index.Conflict
  | .indexConflict conflict => some conflict
  | _ => none

theorem filterMap_conflict?_map (conflicts : List Index.Conflict) :
    (conflicts.map SheetWarning.indexConflict).filterMap conflict? = conflicts := by
  rw [List.filterMap_map]
  exact List.filterMap_some

end SheetWarning

namespace Calculation

/-- What a phase publishes when it reads an index. -/
def published (calculation : Calculation) (index : Index) : Phase → Index.Update
  | .size => (calculation.size index).update
  | .abilityScores => (calculation.abilities index).update
  | .initiative => (calculation.initiative index).update
  | .speed => (calculation.speeds index).update
  | .hitPoints => (calculation.hitPoints index).update
  | .baseAttackBonus => (calculation.baseAttackBonus index).update
  | .savingThrows => (calculation.savingThrows index).update
  | .armorClass => (calculation.armorClass index).update
  | .skills => (calculation.skills index).update
  | .customVariables => (calculation.customVariables index).update
  | .spellTracks => (calculation.spells index).update
  | .resources => (calculation.resources index).update
  | .attacks => (calculation.attacks index).update

/-- What a phase warns of when it reads an index. -/
def reported (calculation : Calculation) (index : Index) : Phase → List SheetWarning
  | .customVariables => (calculation.customVariables index).warnings
  | _ => []

end Calculation

namespace Progress

theorem index_publish (progress : Progress) (update : Index.Update) :
    (progress.publish update).index = (progress.index.apply update).1 := by
  unfold publish
  cases progress.index.apply update
  rfl

theorem warnings_publish (progress : Progress) (update : Index.Update) :
    (progress.publish update).warnings =
      progress.warnings ++ (progress.index.apply update).2.map SheetWarning.indexConflict := by
  unfold publish
  cases progress.index.apply update
  rfl

/-- A phase publishes its update in the index that it reads. -/
theorem index_run (calculation : Calculation) (progress : Progress) (phase : Phase) :
    (run calculation progress phase).index =
      (progress.index.apply (calculation.published progress.index phase)).1 := by
  cases phase <;> exact index_publish _ _

/-- The warnings of a phase come before the conflicts of its update. -/
theorem warnings_run (calculation : Calculation) (progress : Progress) (phase : Phase) :
    (run calculation progress phase).warnings =
      progress.warnings ++ calculation.reported progress.index phase ++
        (progress.index.apply (calculation.published progress.index phase)).2.map
          SheetWarning.indexConflict := by
  cases phase <;> exact warnings_publish _ _

/-- The updates that a run of some phases applies, in order. -/
def updates (calculation : Calculation) (progress : Progress) : List Phase → List Index.Update
  | [] => []
  | phase :: rest =>
    calculation.published progress.index phase ::
      updates calculation (run calculation progress phase) rest

/-- Some updates account for a calculation under way: they make its index and
the conflicts among its warnings. -/
structure Accounts (progress : Progress) (applied : List Index.Update) : Prop where
  index : progress.index.HoldsFirst applied
  conflicts : progress.warnings.filterMap SheetWarning.conflict? =
    Index.disagreements [] applied

/-- Publishing one more update is accounted for by that update. -/
theorem Accounts.publish {progress : Progress} {applied : List Index.Update}
    (accounts : Accounts progress applied) (update : Index.Update) :
    Accounts (progress.publish update) (applied ++ [update]) := by
  constructor
  · rw [index_publish]
    exact accounts.index.apply update
  · rw [warnings_publish, List.filterMap_append, accounts.conflicts,
      SheetWarning.filterMap_conflict?_map, accounts.index.conflicts update,
      Index.disagreements_append, List.nil_append, Index.disagreements, Index.disagreements,
      List.append_nil]

/-- Warnings about other things than conflicts do not matter. -/
theorem Accounts.addWarnings {progress : Progress} {applied : List Index.Update}
    (accounts : Accounts progress applied) {warnings : List SheetWarning}
    (others : warnings.filterMap SheetWarning.conflict? = []) :
    Accounts { progress with warnings := progress.warnings ++ warnings } applied := by
  refine ⟨accounts.index, ?_⟩
  rw [List.filterMap_append, others, List.append_nil]
  exact accounts.conflicts

/-- No phase warns of conflicts by itself. -/
theorem filterMap_conflict?_reported (calculation : Calculation) (index : Index)
    (phase : Phase) :
    (calculation.reported index phase).filterMap SheetWarning.conflict? = [] := by
  cases phase with
  | customVariables =>
    rw [Calculation.reported, Calculation.customVariables]
    dsimp only
    unfold Calculation.evaluationOrder
    cases calculation.dependencies.sort <;> rfl
  | _ => rfl

/-- What a single phase adds to the account. -/
theorem Accounts.run {progress : Progress} {applied : List Index.Update}
    (accounts : Accounts progress applied) (calculation : Calculation) (phase : Phase) :
    Accounts (run calculation progress phase)
      (applied ++ [calculation.published progress.index phase]) := by
  have published := (accounts.addWarnings
    (filterMap_conflict?_reported calculation progress.index phase)).publish
      (calculation.published progress.index phase)
  constructor
  · rw [index_run, ← index_publish]
    exact published.index
  · rw [warnings_run, ← published.conflicts, warnings_publish]

/-- A whole run is accounted for by its updates. -/
theorem Accounts.runAll {progress : Progress} {applied : List Index.Update}
    (accounts : Accounts progress applied) (calculation : Calculation) (phases : List Phase) :
    Accounts (runAll calculation progress phases)
      (applied ++ updates calculation progress phases) := by
  induction phases generalizing progress applied with
  | nil =>
    rw [updates, List.append_nil]
    exact accounts
  | cons phase rest inductionHypothesis =>
    have following := inductionHypothesis (accounts.run calculation phase)
    rw [List.append_assoc, List.singleton_append] at following
    exact following

end Progress

namespace Sheet

/-- What the phases of a sheet read. -/
def calculation (character : Character) (config : Config) : Calculation :=
  let suppressed :=
    Suppression.calculate character.entities (start character config).index .applied
  let active := Suppression.remaining character.entities suppressed
  ⟨character, Compilation.ofCharacter character active, config.bonusTypes, active⟩

/-- The calculation when its first phase is due. -/
def beforePhases (character : Character) (config : Config) : Progress :=
  { start character config with
    warnings := (start character config).warnings ++
      (calculation character config).compiled.warnings }

/-- A sheet is what the run of its phases ends with. -/
theorem calculate_eq (character : Character) (config : Config) :
    calculate character config =
      let finished := Progress.runAll (calculation character config)
        (beforePhases character config) config.phaseOrder
      ⟨finished.statistics, (calculation character config).compiled.special,
        Suppression.calculate character.entities (start character config).index .applied,
        finished.index, finished.warnings⟩ :=
  rfl

/-- All updates of a sheet, in order. -/
def updates (character : Character) (config : Config) : List Index.Update :=
  levelValues character ::
    Progress.updates (calculation character config) (beforePhases character config)
      config.phaseOrder

theorem filterMap_conflict?_orderWarnings (config : Config) :
    (orderWarnings config).filterMap SheetWarning.conflict? = [] := by
  unfold orderWarnings Config.validate
  cases Config.check? config.phaseOrder <;> rfl

/-- Compiling changes warns of unreadable entities only. -/
theorem exists_of_mem_compiled {character : Character} {entities : List Entity}
    {warning : SheetWarning}
    (member : warning ∈ (Compilation.ofCharacter character entities).warnings) :
    ∃ entity property, warning = .invalidEntityData entity property := by
  rcases List.mem_flatMap.mp member with ⟨entity, _, within⟩
  rcases List.mem_map.mp within with ⟨property, _, made⟩
  exact ⟨entity.id, property, made.symm⟩

theorem filterMap_conflict?_compiled (character : Character) (entities : List Entity) :
    (Compilation.ofCharacter character entities).warnings.filterMap SheetWarning.conflict? =
      [] := by
  apply List.filterMap_eq_nil_iff.mpr
  intro warning member
  rcases exists_of_mem_compiled member with ⟨entity, property, rfl⟩
  rfl

/-- The updates of a sheet account for it. -/
theorem accounts_finished (character : Character) (config : Config) :
    Progress.Accounts
      (Progress.runAll (calculation character config) (beforePhases character config)
        config.phaseOrder)
      (updates character config) := by
  have started : Progress.Accounts (start character config) [levelValues character] := by
    have fresh : Progress.Accounts ⟨Statistics.empty, Index.empty, orderWarnings config⟩ [] :=
      ⟨Index.holdsFirst_empty, filterMap_conflict?_orderWarnings config⟩
    exact fresh.publish (levelValues character)
  have compiled := started.addWarnings (filterMap_conflict?_compiled character
    (calculation character config).entities)
  exact Progress.Accounts.runAll compiled (calculation character config) config.phaseOrder

/-- The index of a sheet only ever grows.  Every key has the first value that
an update of the run sets for it, made finite, and the conflicts among the
warnings are those later entries of updates that differ from it, in order. -/
theorem calculate_keeps_first_values (character : Character) (config : Config) :
    (∀ key, (calculate character config).index.get? key =
      (Index.firstSet? (updates character config) key).map Numeric.orZero) ∧
    (∀ key value, (calculate character config).index.get? key = some value →
      value.isFinite = true) ∧
    (calculate character config).warnings.filterMap SheetWarning.conflict? =
      Index.disagreements [] (updates character config) := by
  have accounts := accounts_finished character config
  refine ⟨accounts.index, ?_, accounts.conflicts⟩
  intro key value stored
  exact accounts.index.isFinite stored

end Sheet

end CharacterSheet
