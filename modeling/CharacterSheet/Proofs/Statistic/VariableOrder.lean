import CharacterSheet.Proofs.Dependency.Cycle
import CharacterSheet.Proofs.SortedMap
import CharacterSheet.Statistic.Variable

/-!
# The order in which custom variables are evaluated

Every variable is declared once.  The dependency graph of the declarations has
exactly the declared variables, and relates two of them if a formula of the one
refers to the key of the other; only the variable with the empty name cannot be
referred to.  So if references do not go round in a circle, every declaration
is evaluated once, after the declarations it refers to.
-/

namespace CharacterSheet

theorem VariableId.indexKey_injective : Function.Injective VariableId.indexKey := by
  intro first second same
  have after := Text.stringAfter?_eq_some_iff.mpr same
  rw [VariableId.indexKey, Text.stringAfter?_eq_some_iff.mpr rfl] at after
  exact congrArg VariableId.mk (Option.some.inj after)

namespace VariableDefinition

/-- Declaring a variable adds it unless it is declared. -/
theorem map_id_declare (declared : List VariableDefinition) (definition : VariableDefinition) :
    (declare declared definition).map (·.id) =
      appendNew (declared.map (·.id)) definition.id := by
  rw [declare]
  by_cases known : definition.id ∈ declared.map (·.id)
  · rw [if_pos ((any_key_iff VariableDefinition.id).mpr known), appendNew_of_mem known, List.map_map]
    apply List.map_congr_left
    intro other _
    dsimp only [Function.comp_apply]
    split <;> rfl
  · rw [if_neg (fun listed => known ((any_key_iff VariableDefinition.id).mp listed)), appendNew_of_not_mem known]
    exact List.map_append

theorem map_id_declareBare (declared : List VariableDefinition) (id : VariableId) :
    (declareBare declared id).map (·.id) = appendNew (declared.map (·.id)) id := by
  rw [declareBare]
  by_cases known : id ∈ declared.map (·.id)
  · rw [if_pos ((any_key_iff VariableDefinition.id).mpr known), appendNew_of_mem known]
  · rw [if_neg (fun listed => known ((any_key_iff VariableDefinition.id).mp listed)), appendNew_of_not_mem known]
    exact List.map_append

/-- Declaring things one after the other adds each variable where it first
comes up. -/
theorem map_id_foldl {α : Type} {step : List VariableDefinition → α → List VariableDefinition}
    {id : α → VariableId}
    (each : ∀ declared item, (step declared item).map (·.id) =
      appendNew (declared.map (·.id)) (id item))
    (items : List α) (declared : List VariableDefinition) :
    (items.foldl step declared).map (·.id) =
      (items.map id).foldl appendNew (declared.map (·.id)) := by
  induction items generalizing declared with
  | nil => rfl
  | cons item rest inductionHypothesis =>
    rw [List.foldl_cons, inductionHypothesis, each, List.map_cons, List.foldl_cons]

end VariableDefinition

namespace Calculation

variable (calculation : Calculation)

/-- The declared variables. -/
def declaredIds : List VariableId :=
  calculation.declarations.map (·.id)

/-- No variable is declared twice. -/
theorem nodup_declaredIds : calculation.declaredIds.Nodup := by
  rw [declaredIds, declarations,
    VariableDefinition.map_id_foldl VariableDefinition.map_id_declareBare,
    VariableDefinition.map_id_foldl VariableDefinition.map_id_declare]
  exact nodup_foldl_appendNew _ (nodup_foldl_appendNew _ List.nodup_nil)

/-- Declared are the variables that are defined and those that changes affect. -/
theorem mem_declaredIds_iff {calculation : Calculation} {id : VariableId} :
    id ∈ calculation.declaredIds ↔
      id ∈ (calculation.compiled.definitions calculation.character).map (·.id) ∨
        id ∈ calculation.affectedVariables := by
  rw [declaredIds, declarations,
    VariableDefinition.map_id_foldl VariableDefinition.map_id_declareBare,
    VariableDefinition.map_id_foldl VariableDefinition.map_id_declare, mem_foldl_appendNew,
    mem_foldl_appendNew, List.map_id']
  simp

/-- That a formula of a declared variable refers to the key of another one. -/
def RefersTo (first second : VariableId) : Prop :=
  second ∈ calculation.declaredIds ∧
    ∃ definition ∈ calculation.declarations, definition.id = first ∧
      ∃ formula ∈ calculation.formulasOf definition, second.indexKey ∈ formula.references

variable {calculation}

theorem mem_requirementsOf {definition : VariableDefinition} {id : VariableId} :
    id ∈ calculation.requirementsOf definition ↔
      id.name ≠ "" ∧
        ∃ formula ∈ calculation.formulasOf definition, id.indexKey ∈ formula.references := by
  rw [requirementsOf, mem_firstOccurrences, List.mem_flatMap]
  constructor
  · rintro ⟨formula, listed, member⟩
    rcases List.mem_filterMap.mp member with ⟨key, referred, belongs⟩
    rcases VariableId.ofIndexKey?_eq_some_iff.mp belongs with ⟨rfl, named⟩
    exact ⟨named, formula, listed, referred⟩
  · rintro ⟨named, formula, listed, referred⟩
    have belongs := VariableId.ofIndexKey?_eq_some_iff.mpr ⟨rfl, named⟩
    exact ⟨formula, listed, List.mem_filterMap.mpr ⟨id.indexKey, referred, belongs⟩⟩

theorem nodes_dependencies : calculation.dependencies.nodes = calculation.declaredIds := by
  rw [dependencies, DependencyGraph.nodes_ofDependencies, List.map_map]
  exact firstOccurrences_of_nodup calculation.nodup_declaredIds

/-- The graph relates variables that refer to each other by a name. -/
theorem requires_dependencies {first second : VariableId} :
    calculation.dependencies.Requires first second ↔
      calculation.RefersTo first second ∧ second.name ≠ "" := by
  rw [dependencies, DependencyGraph.requires_ofDependencies, List.map_map]
  constructor
  · rintro ⟨declared, wanted, listed, member⟩
    rcases List.mem_map.mp listed with ⟨definition, known, same⟩
    cases same
    rcases mem_requirementsOf.mp member with ⟨named, refers⟩
    exact ⟨⟨declared, definition, known, rfl, refers⟩, named⟩
  · rintro ⟨⟨declared, definition, known, rfl, refers⟩, named⟩
    exact ⟨declared, calculation.requirementsOf definition,
      List.mem_map.mpr ⟨definition, known, rfl⟩, mem_requirementsOf.mpr ⟨named, refers⟩⟩

/-- No variable refers to itself, directly or through others. -/
def ReferencesAcyclic (calculation : Calculation) : Prop :=
  ∀ id, ¬ Relation.TransGen calculation.RefersTo id id

/-- There is no circle of references if each leads to a smaller number. -/
theorem referencesAcyclic_of_rank (rank : VariableId → Nat)
    (decreases : ∀ definition ∈ calculation.declarations,
      ∀ formula ∈ calculation.formulasOf definition, ∀ id ∈ calculation.declaredIds,
        id.indexKey ∈ formula.references → rank id < rank definition.id) :
    calculation.ReferencesAcyclic := by
  apply not_transGen_self_of_rank rank
  rintro _ second ⟨declared, definition, known, rfl, formula, listed, referred⟩
  exact decreases definition known formula listed second declared referred

theorem ReferencesAcyclic.dependencies (acyclic : calculation.ReferencesAcyclic) :
    calculation.dependencies.Acyclic := by
  intro id circle
  have refers : calculation.dependencies.Requires ≤ calculation.RefersTo :=
    fun _ _ requires => (requires_dependencies.mp requires).1
  exact acyclic id (Relation.TransGen.mono refers id id circle)

/-- The declarations in the order in which they are evaluated. -/
def sortedDeclarations (calculation : Calculation) : List VariableDefinition :=
  (evaluationOrder calculation.dependencies).1.filterMap fun id =>
    calculation.declarations.find? (·.id == id)

/-- The phase evaluates the declarations in this order. -/
theorem customVariables_eq (calculation : Calculation) (index : Index) :
    calculation.customVariables index =
      let calculated := calculation.evaluateInOrder index calculation.sortedDeclarations
      ⟨calculated, Index.Update.ofList (calculated.flatMap (·.published)),
        (evaluationOrder calculation.dependencies).2⟩ :=
  rfl

theorem find?_declarations {definition : VariableDefinition}
    (known : definition ∈ calculation.declarations) :
    calculation.declarations.find? (·.id == definition.id) = some definition :=
  (find?_key_eq_some_iff VariableDefinition.id calculation.nodup_declaredIds).mpr ⟨known, rfl⟩

/-- Whatever order the declared variables are listed in, it lists the
declarations. -/
theorem perm_declarations {order : List VariableId} (perm : order.Perm calculation.declaredIds) :
    (order.filterMap fun id => calculation.declarations.find? (·.id == id)).Perm
      calculation.declarations := by
  have whole : (calculation.declaredIds.filterMap fun id =>
      calculation.declarations.find? (·.id == id)) = calculation.declarations := by
    rw [declaredIds, List.filterMap_map]
    have each : ∀ definition ∈ calculation.declarations,
        ((fun id => calculation.declarations.find? (·.id == id)) ∘ (·.id)) definition =
          some definition :=
      fun _ known => find?_declarations known
    rw [List.filterMap_congr each, List.filterMap_some]
  have found := perm.filterMap fun id => calculation.declarations.find? (·.id == id)
  rwa [whole] at found

/-- Everything is evaluated once, also where references go round in a
circle. -/
theorem perm_evaluationOrder (graph : DependencyGraph) :
    (evaluationOrder graph).1.Perm graph.nodes := by
  rw [evaluationOrder]
  cases sorted : graph.sort with
  | ok order =>
    rcases DependencyGraph.sort_eq_ok_iff.mp sorted with ⟨acyclic, rfl⟩
    exact DependencyGraph.perm_listing acyclic
  | error cycle => exact List.Perm.refl _

theorem evaluationOrder_subset_nodes (graph : DependencyGraph) :
    (evaluationOrder graph).1 ⊆ graph.nodes :=
  (perm_evaluationOrder graph).subset

theorem perm_evaluated (calculation : Calculation) :
    calculation.sortedDeclarations.Perm calculation.declarations :=
  perm_declarations (nodes_dependencies ▸ perm_evaluationOrder calculation.dependencies)

theorem nodup_id_sortedDeclarations (calculation : Calculation) :
    (calculation.sortedDeclarations.map (·.id)).Nodup :=
  ((perm_evaluated calculation).map _).nodup_iff.mpr calculation.nodup_declaredIds

theorem map_id_sortedDeclarations (calculation : Calculation) :
    calculation.sortedDeclarations.map (·.id) = (evaluationOrder calculation.dependencies).1 := by
  have each : ∀ id ∈ (evaluationOrder calculation.dependencies).1,
      (calculation.declarations.find? (·.id == id)).map (·.id) = some id := by
    intro id member
    have declared := evaluationOrder_subset_nodes _ member
    rw [nodes_dependencies] at declared
    rcases List.mem_map.mp declared with ⟨definition, known, rfl⟩
    rw [find?_declarations known, Option.map_some]
  rw [sortedDeclarations, List.map_filterMap, List.filterMap_congr each, List.filterMap_some]

theorem map_id_evaluateInOrder (calculation : Calculation) (index : Index)
    (definitions : List VariableDefinition) :
    (calculation.evaluateInOrder index definitions).map (·.id) = definitions.map (·.id) := by
  induction definitions generalizing index with
  | nil => rfl
  | cons definition rest inductionHypothesis =>
    rw [evaluateInOrder, List.map_cons, List.map_cons, inductionHypothesis]
    rfl

/-- The ids of the calculated variables are listed in the order of
evaluation. -/
theorem map_id_customVariables (calculation : Calculation) (index : Index) :
    (calculation.customVariables index).value.map (·.id) =
      (evaluationOrder calculation.dependencies).1 := by
  rw [customVariables_eq]
  dsimp only
  rw [map_id_evaluateInOrder, map_id_sortedDeclarations]

variable (acyclic : calculation.ReferencesAcyclic)

include acyclic

theorem evaluationOrder_dependencies :
    evaluationOrder calculation.dependencies = (calculation.dependencies.listing, []) := by
  rw [evaluationOrder, DependencyGraph.sort_eq_listing acyclic.dependencies]

/-- Each declaration is evaluated once. -/
theorem perm_sortedDeclarations :
    calculation.sortedDeclarations.Perm calculation.declarations := by
  have listed := DependencyGraph.perm_listing acyclic.dependencies
  rw [nodes_dependencies] at listed
  rw [sortedDeclarations, evaluationOrder_dependencies acyclic]
  exact perm_declarations listed

/-- A declaration is evaluated after those it refers to by a name. -/
theorem mem_before_of_refersTo {before after : List VariableDefinition}
    {definition : VariableDefinition}
    (split : calculation.sortedDeclarations = before ++ definition :: after) {id : VariableId}
    (refers : calculation.RefersTo definition.id id) (named : id.name ≠ "") :
    id ∈ before.map (·.id) := by
  have ordered := DependencyGraph.ordered_listing acyclic.dependencies
  have ids := calculation.map_id_sortedDeclarations
  rw [evaluationOrder_dependencies acyclic, split, List.map_append, List.map_cons] at ids
  exact ordered.behind _ _ _ ids.symm id (requires_dependencies.mpr ⟨refers, named⟩)

end Calculation
end CharacterSheet
