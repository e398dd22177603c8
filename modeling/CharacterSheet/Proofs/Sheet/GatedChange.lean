import CharacterSheet.Proofs.Sheet.PhaseOrder
import CharacterSheet.Proofs.Statistic.GatedChange

/-!
# A change that never holds leaves a trace only by what it names

The sheet shows the order in which custom variables were evaluated, and whether
they depend on each other in a circle.  So a change to a custom variable whose
conditions never hold goes unnoticed exactly if this order is the same without
it.  Other changes that never hold go unnoticed, provided that they do not
affect a way of moving that has no speed without them.
-/

namespace CharacterSheet

namespace SheetWarning

/-- Whether a warning tells of variables that depend on each other in a
circle. -/
def isCycle : SheetWarning → Bool
  | .dependencyCycle _ => true
  | _ => false

theorem filter_isCycle_map (conflicts : List Index.Conflict) :
    (conflicts.map SheetWarning.indexConflict).filter isCycle = [] := by
  rw [List.filter_eq_nil_iff]
  intro warning member
  rcases List.mem_map.mp member with ⟨conflict, _, rfl⟩
  exact Bool.false_ne_true

end SheetWarning

namespace Condition

/-- A condition that compares numbers for themselves fails on every index if it
fails on one. -/
theorem allHold_of_fails {conditions : List Condition} {condition : SimpleCondition}
    (listed : .simple condition ∈ conditions) (plain : condition.keys = [])
    (fails : condition.holds Index.empty = false) {index : Index}
    {entities : Option (List Entity)} : allHold conditions index entities = false := by
  have everywhere : condition.holds index = condition.holds Index.empty := by
    apply SimpleCondition.holds_congr
    rw [plain]
    exact fun _ none => absurd none List.not_mem_nil
  exact List.all_eq_false.mpr ⟨.simple condition, listed,
    Bool.not_eq_true _ ▸ everywhere.trans fails⟩

/-- The condition that one is two. -/
def impossible : Condition :=
  .simple ⟨"1", .equal, "2"⟩

end Condition

namespace Calculation

theorem filter_isCycle_evaluationOrder (graph : DependencyGraph) :
    (evaluationOrder graph).2.filter SheetWarning.isCycle = (evaluationOrder graph).2 := by
  rw [evaluationOrder]
  cases graph.sort <;> rfl

end Calculation

namespace Progress

variable {calculation : Calculation} {progress : Progress}

/-- The custom variables in the order in which they were evaluated, and the
warnings about circles of them. -/
def evaluated (progress : Progress) : List VariableId × List SheetWarning :=
  (progress.statistics.customVariables.map (·.id),
    progress.warnings.filter SheetWarning.isCycle)

theorem evaluated_run_of_ne {phase : Phase} (other : phase ≠ .customVariables) :
    (run calculation progress phase).evaluated = progress.evaluated := by
  have silent : calculation.reported progress.index phase = [] := by
    cases phase with
    | customVariables => exact absurd rfl other
    | _ => rfl
  have kept : (run calculation progress phase).statistics.customVariables =
      progress.statistics.customVariables := by
    rw [statistics_run]
    cases phase with
    | customVariables => exact absurd rfl other
    | _ => rfl
  rw [evaluated, kept, warnings_run, silent, List.append_nil, List.filter_append,
    SheetWarning.filter_isCycle_map, List.append_nil, evaluated]

theorem evaluated_runAll_of_not_mem {phases : List Phase} (others : .customVariables ∉ phases) :
    (runAll calculation progress phases).evaluated = progress.evaluated := by
  induction phases generalizing progress with
  | nil => rfl
  | cons phase rest inductionHypothesis =>
    rw [List.mem_cons, not_or] at others
    exact (inductionHypothesis others.2).trans (evaluated_run_of_ne fun same => others.1 same.symm)

theorem evaluated_run_customVariables
    (noCircle : progress.warnings.filter SheetWarning.isCycle = []) :
    (run calculation progress .customVariables).evaluated =
      Calculation.evaluationOrder calculation.dependencies := by
  have statistics : (run calculation progress .customVariables).statistics.customVariables =
      calculation.evaluateInOrder progress.index calculation.sortedDeclarations := by
    rw [statistics_run]
    rfl
  have reported : calculation.reported progress.index .customVariables =
      (Calculation.evaluationOrder calculation.dependencies).2 :=
    rfl
  rw [evaluated, statistics, Calculation.map_id_evaluateInOrder,
    Calculation.map_id_sortedDeclarations, warnings_run, reported, List.filter_append,
    List.filter_append, noCircle, Calculation.filter_isCycle_evaluationOrder,
    SheetWarning.filter_isCycle_map, List.append_nil, List.nil_append]

/-- A run in which custom variables are calculated once shows the order of
their evaluation. -/
theorem evaluated_runAll (noCircle : progress.warnings.filter SheetWarning.isCycle = [])
    {phases : List Phase} (once : phases.count .customVariables = 1) :
    (runAll calculation progress phases).evaluated =
      Calculation.evaluationOrder calculation.dependencies := by
  have member : Phase.customVariables ∈ phases := List.count_pos_iff.mp (once ▸ Nat.one_pos)
  rcases List.append_of_mem member with ⟨before, after, rfl⟩
  rw [List.count_append, List.count_cons_self] at once
  have notBefore : Phase.customVariables ∉ before := List.count_eq_zero.mp (by omega)
  have notAfter : Phase.customVariables ∉ after := List.count_eq_zero.mp (by omega)
  have reached : (runAll calculation progress before).evaluated = progress.evaluated :=
    evaluated_runAll_of_not_mem notBefore
  rw [runAll_append]
  exact (evaluated_runAll_of_not_mem notAfter).trans
    (evaluated_run_customVariables ((congrArg Prod.snd reached).trans noCircle))

theorem run_withChanges {own : List Change} {changes : List CompiledChange}
    (same : (calculation.withChanges own changes).sources = calculation.sources)
    (sameBases : (calculation.withChanges own changes).baseSpeeds = calculation.baseSpeeds)
    (sameOrder : Calculation.evaluationOrder (calculation.withChanges own changes).dependencies =
      Calculation.evaluationOrder calculation.dependencies) :
    run (calculation.withChanges own changes) = run calculation :=
  run_congr (Calculation.alike_withChanges same sameBases sameOrder)

end Progress

namespace Character

/-- The character without one of the changes written on it. -/
def withoutChange (character : Character) (place : Nat) : Character :=
  { character with changes := character.changes.eraseIdx place }

end Character

namespace Sheet

variable {character : Character} {config : Config}

theorem filter_isCycle_beforePhases (valid : config.validate = .ok ()) :
    (beforePhases character config).warnings.filter SheetWarning.isCycle = [] := by
  have noOrder : orderWarnings config = [] := by
    rw [orderWarnings, valid]
  have entityData : (calculation character config).compiled.warnings.filter
      SheetWarning.isCycle = [] := by
    rw [List.filter_eq_nil_iff]
    intro warning member
    rcases exists_of_mem_compiled member with ⟨entity, property, rfl⟩
    exact Bool.false_ne_true
  rw [beforePhases, start, Progress.warnings_publish, noOrder, List.nil_append,
    List.filter_append, SheetWarning.filter_isCycle_map, entityData]
  rfl

/-- A sheet shows the order in which custom variables were evaluated. -/
theorem evaluationOrder_of_calculate (valid : config.validate = .ok ()) :
    Calculation.evaluationOrder (calculation character config).dependencies =
      ((calculate character config).statistics.customVariables.map (·.id),
        (calculate character config).warnings.filter SheetWarning.isCycle) :=
  (Progress.evaluated_runAll (filter_isCycle_beforePhases valid)
    ((Config.runnable_of_validate valid).count .customVariables)).symm

/-- Without a change that is written on the character, only the changes that
are compiled are others. -/
theorem calculation_withoutChange (config : Config) {place : Nat} {change : Change}
    (written : character.changes[place]? = some change) :
    ∃ before after, (calculation character config).compiled.changes =
        before ++ ⟨change, character.ownContent.origin⟩ :: after ∧
      calculation (character.withoutChange place) config =
        (calculation character config).withChanges (character.changes.eraseIdx place)
          (before ++ after) := by
  let origin := character.ownContent.origin
  let others := ((character.contents (calculation character config).entities).tail).flatMap
    fun content => content.changes.map (⟨·, content.origin⟩ : Change → CompiledChange)
  let before := character.changes.take place
  let after := character.changes.drop (place + 1)
  have own : character.changes = before ++ change :: after := by
    rcases List.getElem?_eq_some_iff.mp written with ⟨within, found⟩
    rw [← found, ← List.drop_eq_getElem_cons within, List.take_append_drop]
  refine ⟨before.map (⟨·, origin⟩), after.map (⟨·, origin⟩) ++ others, ?_, ?_⟩
  · have compiled : (calculation character config).compiled.changes =
        character.changes.map (⟨·, origin⟩) ++ others :=
      rfl
    rw [compiled, own, List.map_append, List.map_cons, List.append_assoc, List.cons_append]
  · have compiled : calculation (character.withoutChange place) config =
        (calculation character config).withChanges (character.changes.eraseIdx place)
          ((character.changes.eraseIdx place).map (⟨·, origin⟩) ++ others) :=
      rfl
    rw [compiled, List.eraseIdx_eq_take_drop_succ, List.map_append, List.append_assoc]

/-- A change whose conditions never hold goes unnoticed if it affects no custom
variable, and otherwise exactly if the same variables are evaluated in the same
order without it.  A way of moving that it affects must have a speed anyway. -/
theorem calculate_withoutChange (character : Character) (config : Config) (place : Nat)
    (change : Change) (valid : config.validate = .ok ())
    (written : character.changes[place]? = some change)
    (never : ∀ index, Condition.allHold change.conditions index
      (some (calculation character config).entities) = false)
    (moves : ∀ mode, change.target = .speed mode →
      (calculation (character.withoutChange place) config).baseSpeeds.contains mode = true) :
    calculate (character.withoutChange place) config = calculate character config ↔
      ∀ id, change.target = .customVariable id →
        Calculation.evaluationOrder
            (calculation (character.withoutChange place) config).dependencies =
          Calculation.evaluationOrder (calculation character config).dependencies := by
  constructor
  · intro unnoticed id _
    rw [evaluationOrder_of_calculate valid, evaluationOrder_of_calculate valid, unnoticed]
  · intro sameOrder
    rcases calculation_withoutChange config written with ⟨before, after, split, reduced⟩
    rw [reduced] at moves sameOrder
    -- Whatever the change affects, variables are evaluated in one order.
    have order : Calculation.evaluationOrder ((calculation character config).withChanges
          (character.changes.eraseIdx place) (before ++ after)).dependencies =
        Calculation.evaluationOrder (calculation character config).dependencies := by
      by_cases affects : ∃ id, change.target = .customVariable id
      · rcases affects with ⟨id, target⟩
        exact sameOrder id target
      · rw [Calculation.dependencies_of_not_variable split _
          fun id target => affects ⟨id, target⟩]
    have sameRun : Progress.run (calculation (character.withoutChange place) config) =
        Progress.run (calculation character config) := by
      rw [reduced]
      exact Progress.run_withChanges (Calculation.sources_of_gated split _ never)
        (Calculation.baseSpeeds_of_known split _ moves) order
    rw [calculate_eq, calculate_eq, Progress.runAll, Progress.runAll, sameRun]
    rfl

/-- A character with changes to initiative and to a variable, none of which can
hold. -/
def dormant : Character :=
  { Character.of "sample" with
    changes :=
      [{ Change.of .initiative "2 * 2" BonusType.untyped with conditions := [.impossible] },
        { Change.of (.customVariable ⟨"ki"⟩) "5" BonusType.untyped with
          conditions := [.impossible] }] }

theorem calculate_withoutChange_dormant :
    Config.default.validate = .ok () ∧
      (∀ index, Condition.allHold [.impossible] index
        (some (calculation dormant Config.default).entities) = false) ∧
      calculate (dormant.withoutChange 0) Config.default = calculate dormant Config.default := by
  have valid : Config.default.validate = .ok () := rfl
  have never : ∀ index, Condition.allHold [.impossible] index
      (some (calculation dormant Config.default).entities) = false :=
    fun _ => Condition.allHold_of_fails List.mem_cons_self rfl (by decide +kernel)
  exact ⟨valid, never, (calculate_withoutChange dormant Config.default 0 _ valid rfl never
    (fun _ moves => by cases moves)).mpr fun _ target => by cases target⟩

/-- A variable is declared by a change to it, whether the change holds or
not. -/
theorem calculate_dormant_ne :
    Config.default.validate = .ok () ∧
      (∃ change, dormant.changes[1]? = some change ∧
        ∀ index entities, Condition.allHold change.conditions index entities = false) ∧
      calculate (dormant.withoutChange 1) Config.default ≠ calculate dormant Config.default := by
  refine ⟨rfl, ⟨_, rfl, fun _ _ => ?_⟩, fun unnoticed => ?_⟩
  · exact Condition.allHold_of_fails List.mem_cons_self rfl (by decide +kernel)
  · have fewer :
        (calculate (dormant.withoutChange 1) Config.default).statistics.customVariables.length ≠
          (calculate dormant Config.default).statistics.customVariables.length := by
      decide +kernel
    exact fewer (congrArg (·.statistics.customVariables.length) unnoticed)

end Sheet

end CharacterSheet
