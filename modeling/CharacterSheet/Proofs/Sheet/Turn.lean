import CharacterSheet.Proofs.Sheet.PhaseOrder

/-!
# Every phase has one turn

In an order that can be run every phase has one turn.  The values that it finds
on the index then are those at the end, and its result then is what the sheet
shows.  What it publishes is there at the end as well, unless the sheet warns
of a conflict.
-/

namespace CharacterSheet

namespace Statistics

theorem take_take_self (results statistics : Statistics) (phase : Phase) :
    results.take (results.take statistics phase) phase = results.take statistics phase := by
  cases phase <;> rfl

end Statistics

namespace Progress

variable {calculation : Calculation} {progress : Progress} {phase : Phase} {phases : List Phase}

theorem updates_append (calculation : Calculation) (progress : Progress)
    (before after : List Phase) :
    updates calculation progress (before ++ after) =
      updates calculation progress before ++
        updates calculation (runAll calculation progress before) after := by
  induction before generalizing progress with
  | nil => rfl
  | cons phase rest inductionHypothesis =>
    rw [List.cons_append, updates, inductionHypothesis]
    rfl

/-- The result of a phase stays as long as only other phases run. -/
theorem take_statistics_runAll {results : Statistics}
    (held : results.take progress.statistics phase = progress.statistics)
    (others : phase ∉ phases) :
    results.take (runAll calculation progress phases).statistics phase =
      (runAll calculation progress phases).statistics := by
  induction phases generalizing progress with
  | nil => exact held
  | cons other rest inductionHypothesis =>
    rw [List.mem_cons, not_or] at others
    have different : other ≠ phase := fun same => others.1 same.symm
    refine inductionHypothesis ?_ others.2
    rw [statistics_run, Statistics.take_take_of_ne different, held]

end Progress

namespace Sheet

/-- The conflicts that a sheet warns of. -/
def conflicts (sheet : Sheet) : List Index.Conflict :=
  sheet.warnings.filterMap SheetWarning.conflict?

/-- A sheet warns of a conflict about a key. -/
def WarnsOf (sheet : Sheet) (key : String) : Prop :=
  ∃ conflict ∈ sheet.conflicts, conflict.key = key

instance (sheet : Sheet) (key : String) : Decidable (sheet.WarnsOf key) :=
  inferInstanceAs (Decidable (∃ conflict ∈ sheet.conflicts, conflict.key = key))

/-- A number stands under a key of a sheet, unless the sheet warns of a
conflict about the key. -/
def ShowsUnder (sheet : Sheet) (key : String) (number : Float) : Prop :=
  (∃ stored, sheet.index.get? key = some stored ∧ (stored == number) = true) ∨
    sheet.WarnsOf key

/-- The calculation when it is the turn of a phase. -/
def atTurn (character : Character) (config : Config) (phase : Phase) : Progress :=
  Progress.atTurn (calculation character config) (beforePhases character config)
    config.phaseOrder phase

variable {character : Character} {config : Config} {phase : Phase}

/-- What is on the index at the turn of a phase stays there. -/
theorem get?_calculate_of_atTurn {key : String}
    (known : ((atTurn character config phase).index.get? key).isSome = true) :
    (calculate character config).index.get? key =
      (atTurn character config phase).index.get? key := by
  have whole : (calculate character config).index =
      (Progress.runAll (calculation character config) (atTurn character config phase)
        (config.phaseOrder.dropWhile (· != phase))).index := by
    rw [calculate_eq, atTurn, Progress.runAll_atTurn]
  rw [whole]
  exact Progress.get?_runAll known _

variable (valid : config.validate = .ok ())

include valid

/-- The sheet shows the result that a phase has in its turn. -/
theorem take_statistics_calculate (phase : Phase) :
    ((calculation character config).results (atTurn character config phase).index).take
        (calculate character config).statistics phase =
      (calculate character config).statistics := by
  rcases (Config.runnable_of_validate valid).exists_split phase with ⟨after, split, notAfter⟩
  have whole : (calculate character config).statistics =
      (Progress.runAll (calculation character config)
        (Progress.run (calculation character config) (atTurn character config phase) phase)
        after).statistics := by
    rw [calculate_eq]
    dsimp only
    rw [split, Progress.runAll_append]
    rfl
  rw [whole]
  refine Progress.take_statistics_runAll ?_ notAfter
  rw [Progress.statistics_run, Statistics.take_take_self]

theorem customVariables_calculate :
    (calculate character config).statistics.customVariables =
      (calculation character config).evaluateInOrder
        (atTurn character config .customVariables).index
        (calculation character config).sortedDeclarations :=
  (congrArg Statistics.customVariables (take_statistics_calculate valid .customVariables)).symm

theorem resources_calculate :
    (calculate character config).statistics.resources =
      ((calculation character config).resources (atTurn character config .resources).index).value :=
  (congrArg Statistics.resources (take_statistics_calculate valid .resources)).symm

theorem spells_calculate :
    (calculate character config).statistics.spells =
      ((calculation character config).spells (atTurn character config .spellTracks).index).value :=
  (congrArg Statistics.spells (take_statistics_calculate valid .spellTracks)).symm

/-- The update that a phase makes in its turn is one of those of the sheet. -/
theorem published_mem_updates (phase : Phase) :
    (calculation character config).published (atTurn character config phase).index phase ∈
      updates character config := by
  rcases (Config.runnable_of_validate valid).exists_split phase with ⟨after, split, -⟩
  rw [updates, split, Progress.updates_append]
  exact List.mem_cons_of_mem _ (List.mem_append_right _ List.mem_cons_self)

/-- When spells are calculated, all declared variables are published. -/
theorem isSome_get?_atTurn_spellTracks {id : VariableId}
    (declared : id ∈ (calculation character config).declaredIds) :
    ((atTurn character config .spellTracks).index.get? id.indexKey).isSome = true :=
  Progress.isSome_get?_atTurn (Config.runnable_of_validate valid) _ List.mem_cons_self
    (Calculation.publishes_indexKey declared)

/-- What a phase publishes in its turn stands on the sheet, unless the sheet
warns of a conflict. -/
theorem showsUnder_of_published {key : String} {value : Float}
    (published : ((calculation character config).published
      (atTurn character config phase).index phase).get? key = some value) :
    (calculate character config).ShowsUnder key (Numeric.orZero value) := by
  have accounts := accounts_finished character config
  rcases accounts.index.stored (published_mem_updates valid phase) published with
    ⟨stored, found, same | ⟨conflict, disagrees, about⟩⟩
  · exact Or.inl ⟨stored, found, same⟩
  · rw [← accounts.conflicts] at disagrees
    exact Or.inr ⟨conflict, disagrees, about⟩

end Sheet

end CharacterSheet
