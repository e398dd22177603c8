import CharacterSheet.Proofs.Sheet.Spelling

/-!
# What stands under the key of a custom variable

Keys in the namespace of custom variables are published by the phase of these
variables before any other phase can do so: the phases that may run earlier
publish only keys that begin otherwise, as do the levels.  So what the sheet has
under the key of a variable is decided within the one update of that phase.
-/

namespace CharacterSheet

open VariableId (LiesOutside liesOutside_between)

namespace Sheet

theorem get?_levelValues_indexKey (character : Character) (id : VariableId) :
    (levelValues character).get? id.indexKey = none := by
  refine Index.Update.get?_ofList_indexKey ?_ id
  have classes : ∀ name ending : String, LiesOutside ("class." ++ name ++ ending) :=
    liesOutside_between (by decide) (by decide)
  simp only [List.map_append, List.map_cons, List.map_nil, List.map_map, List.forall_mem_append,
    List.forall_mem_cons, List.forall_mem_map]
  exact ⟨by decide, fun taken _ => classes taken.id _⟩

variable {character : Character} {config : Config} (valid : config.validate = .ok ())

include valid

/-- Before the turn of the custom variables no key of one has a value. -/
theorem get?_atTurn_indexKey (id : VariableId) :
    (atTurn character config .customVariables).index.get? id.indexKey = none := by
  refine Progress.get?_runAll_eq_none ?_ fun phase earlier => ?_
  · change (start character config).index.get? id.indexKey = none
    rw [start, Progress.index_publish, Index.get?_apply, get?_levelValues_indexKey]
    rfl
  · have runnable := Config.runnable_of_validate valid
    have notEarlier := Phase.notMem_takeWhile config.phaseOrder .customVariables
    rcases runnable.exists_split .customVariables with ⟨after, split, -⟩
    rcases List.append_of_mem earlier with ⟨before, between, parts⟩
    rw [parts, List.append_assoc, List.cons_append] at split
    have required := runnable.respects before phase _ split
    refine (calculation character config).withholds_indexKey id ?_ ?_
    · rintro rfl
      exact notEarlier earlier
    · rintro rfl
      exact notEarlier (parts ▸ List.mem_append_left _ (required List.mem_cons_self))

/-- Under the key of a declared variable the sheet has the last total of a
variable that goes by this key. -/
theorem get?_calculate_indexKey {id : VariableId}
    (declared : id ∈ (calculation character config).declaredIds) :
    (calculate character config).index.get? id.indexKey =
      VariableStat.lastTotal? (calculate character config).statistics.customVariables
        id.indexKey := by
  -- nothing has the key before the turn of the phase, and what has a value keeps it afterwards
  rcases (Config.runnable_of_validate valid).exists_split .customVariables with
    ⟨after, split, -⟩
  let turn := atTurn character config .customVariables
  let reached := Progress.run (calculation character config) turn .customVariables
  have published := Calculation.publishes_indexKey declared turn.index
  have update : ((calculation character config).published turn.index .customVariables).get?
        id.indexKey =
      ((calculate character config).statistics.customVariables.flatMap
        (·.published)).reverse.lookup id.indexKey := by
    rw [customVariables_calculate valid]
    exact SortedMap.find?_ofList _ _
  have now : reached.index.get? id.indexKey =
      VariableStat.lastTotal? (calculate character config).statistics.customVariables
        id.indexKey := by
    rw [Progress.index_run, Index.get?_apply, get?_atTurn_indexKey valid, Option.none_or, update]
    rfl
  have whole : (calculate character config).index =
      (Progress.runAll (calculation character config) reached after).index := by
    rw [calculate_eq]
    dsimp only
    rw [split, Progress.runAll_append]
    rfl
  rw [whole, Progress.get?_runAll, now]
  rw [Progress.index_run, Index.get?_apply, get?_atTurn_indexKey valid, Option.none_or,
    Option.isSome_map]
  exact published

/-- So it is the total of the variable itself, unless another one has this key
as its name. -/
theorem get?_calculate_of_unnamed {calculated : VariableStat}
    (member : calculated ∈ (calculate character config).statistics.customVariables)
    (unnamed : ∀ id ∈ (calculation character config).declaredIds,
      id.name ≠ calculated.id.indexKey) :
    (calculate character config).index.get? calculated.id.indexKey =
      some (Numeric.orZero calculated.stat.total) := by
  have declared : ∀ other ∈ (calculate character config).statistics.customVariables,
      other.id ∈ (calculation character config).declaredIds := by
    intro other among
    rw [customVariables_calculate valid] at among
    have listed := List.mem_map_of_mem (f := VariableStat.id) among
    rw [Calculation.map_id_evaluateInOrder] at listed
    exact ((Calculation.perm_evaluated _).map _).mem_iff.mp listed
  rw [get?_calculate_indexKey valid (declared calculated member)]
  refine lastTotal?_of_only valid member List.mem_cons_self fun other among goesBy => ?_
  rcases List.mem_cons.mp goesBy with sameKey | sameName
  · exact VariableId.indexKey_injective sameKey.symm
  · exact absurd (List.mem_singleton.mp sameName).symm (unnamed other.id (declared other among))

end Sheet

end CharacterSheet
