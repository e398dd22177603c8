import CharacterSheet.Proofs.Dependency.Circle
import CharacterSheet.Proofs.Statistic.VariableFixpoint

/-!
# No custom variable is lost or repeated

Variables are mentioned by definitions and by changes, as often as these like.
Each of them is declared once, the graph has the declared variables as its
nodes, and the order of evaluation goes through all nodes, whether it is made
by sorting or, where variables refer to each other in a circle, is the order of
declaration.  So what comes out are the variables that are mentioned, each once
and with its two keys.

What the graph sees of the references decides which of the two orders it is.  A
reference to the variable with the empty name is none for the graph.
-/

namespace CharacterSheet
namespace Calculation

open DependencyGraph (IsCircle)
open Relation (TransGen)

variable (calculation : Calculation)

/-- The variables with a definition and then those that changes affect, as
often as they are mentioned. -/
def mentionedIds : List VariableId :=
  (calculation.compiled.definitions calculation.character).map (·.id) ++
    calculation.affectedVariables

/-- That a variable refers to another one which has a name. -/
def RefersByName (first second : VariableId) : Prop :=
  calculation.RefersTo first second ∧ second.name ≠ ""

/-- What comes out of evaluating all variables, given which of them refer to
each other. -/
structure CoversVariables (index : Index) (refers : VariableId → VariableId → Prop) : Prop where
  /-- Every variable that is mentioned is evaluated once. -/
  perm : ((calculation.customVariables index).value.map (·.id)).Perm
    (firstOccurrences calculation.mentionedIds)
  /-- Published are the two keys of each. -/
  keys : ∀ key, ((calculation.customVariables index).update.get? key).isSome = true ↔
    ∃ id ∈ calculation.mentionedIds, key = id.indexKey ∨ key = id.name
  /-- Where variables refer to each other in a circle, they are evaluated as
  they are mentioned, and one warning shows such a circle. -/
  circular : (∃ id, TransGen refers id id) →
    (calculation.customVariables index).value.map (·.id) =
        firstOccurrences calculation.mentionedIds ∧
      ∃ circle, IsCircle refers circle ∧
        (calculation.customVariables index).warnings = [.dependencyCycle circle]
  /-- Otherwise there is no warning. -/
  silent : (¬ ∃ id, TransGen refers id id) → (calculation.customVariables index).warnings = []

section Order

/-- Sorting succeeds, or a circle of the dependencies is reported and the order
of declaration is kept. -/
theorem evaluationOrder_spec (graph : DependencyGraph) :
    (graph.Acyclic ∧ evaluationOrder graph = (graph.listing, [])) ∨
      ¬ graph.Acyclic ∧ ∃ circle, IsCircle graph.Requires circle ∧
        evaluationOrder graph = (graph.nodes, [.dependencyCycle circle]) := by
  cases found : graph.findCycle? with
  | none =>
    have acyclic := DependencyGraph.findCycle?_eq_none_iff.mp found
    refine Or.inl ⟨acyclic, ?_⟩
    rw [evaluationOrder, DependencyGraph.sort_eq_listing acyclic]
  | some circle =>
    have cyclic : ¬ graph.Acyclic := by
      intro acyclic
      rw [DependencyGraph.findCycle?_eq_none_iff.mpr acyclic] at found
      cases found
    refine Or.inr ⟨cyclic, circle, DependencyGraph.isCircle_of_findCycle? found, ?_⟩
    rw [evaluationOrder, DependencyGraph.sort, found]
    rfl

theorem requires_dependencies_eq :
    calculation.dependencies.Requires = calculation.RefersByName := by
  funext first second
  exact propext requires_dependencies

theorem acyclic_dependencies_iff :
    calculation.dependencies.Acyclic ↔
      ¬ ∃ id, TransGen calculation.RefersByName id id := by
  rw [DependencyGraph.Acyclic, requires_dependencies_eq, not_exists]

end Order

section Mentions

/-- Variables are declared as they are mentioned. -/
theorem declaredIds_eq_firstOccurrences :
    calculation.declaredIds = firstOccurrences calculation.mentionedIds := by
  rw [declaredIds, declarations,
    VariableDefinition.map_id_foldl VariableDefinition.map_id_declareBare,
    VariableDefinition.map_id_foldl VariableDefinition.map_id_declare, List.map_id',
    firstOccurrences, mentionedIds, List.foldl_append]
  rfl

theorem map_fst_update (index : Index) :
    ((calculation.evaluateInOrder index calculation.sortedDeclarations).flatMap
        (·.published)).map Prod.fst =
      (evaluationOrder calculation.dependencies).1.flatMap fun id => [id.indexKey, id.name] := by
  rw [map_fst_published, ← map_id_sortedDeclarations, List.flatMap_map]
  rfl

/-- The nodes of the dependency graph are the variables that are mentioned. -/
theorem nodes_eq_firstOccurrences :
    calculation.dependencies.nodes = firstOccurrences calculation.mentionedIds :=
  nodes_dependencies.trans calculation.declaredIds_eq_firstOccurrences

theorem mem_evaluationOrder_iff {id : VariableId} :
    id ∈ (evaluationOrder calculation.dependencies).1 ↔ id ∈ calculation.mentionedIds := by
  rw [(perm_evaluationOrder calculation.dependencies).mem_iff, nodes_eq_firstOccurrences,
    mem_firstOccurrences]

end Mentions

/-- Evaluating custom variables covers each variable that is mentioned once,
whether or not they refer to each other in a circle by their names. -/
theorem coversVariables (calculation : Calculation) (index : Index) :
    calculation.CoversVariables index calculation.RefersByName where
  perm := by
    rw [map_id_customVariables, ← nodes_eq_firstOccurrences]
    exact perm_evaluationOrder _
  keys key := by
    rw [update_customVariables, Index.Update.isSome_get?_ofList_iff, map_fst_update,
      List.mem_flatMap]
    simp only [mem_evaluationOrder_iff, List.mem_cons, List.not_mem_nil, or_false]
  circular := by
    intro circular
    rcases evaluationOrder_spec calculation.dependencies with
      ⟨acyclic, -⟩ | ⟨-, circle, isCircle, order⟩
    · exact absurd circular (calculation.acyclic_dependencies_iff.mp acyclic)
    · rw [map_id_customVariables, customVariables_eq, order, nodes_eq_firstOccurrences]
      rw [requires_dependencies_eq] at isCircle
      exact ⟨rfl, circle, isCircle, rfl⟩
  silent := by
    intro straight
    rcases evaluationOrder_spec calculation.dependencies with
      ⟨-, order⟩ | ⟨cyclic, -⟩
    · rw [customVariables_eq, order]
    · exact absurd (calculation.acyclic_dependencies_iff.mpr straight) cyclic

example :
    let calculated := (ofVariables [("a", "@customVariable.b"), ("c", "1"),
      ("b", "@customVariable.a")]).customVariables Index.empty
    calculated.value.map (·.id.name) = ["a", "c", "b"] ∧
      calculated.warnings.map (·.message) = ["Custom variable cycle: a -> b -> a"] := by
  decide +kernel

/-- A variable with the empty name that reads its own key. -/
def namelessCircle : Calculation :=
  ofVariables [("", "@customVariable.")]

/-- The circle of a variable with the empty name is not noticed. -/
theorem not_coversVariables_namelessCircle :
    ¬ ∀ (calculation : Calculation) (index : Index),
      calculation.CoversVariables index calculation.RefersTo := by
  intro law
  have refers : namelessCircle.RefersTo ⟨""⟩ ⟨""⟩ :=
    ⟨by decide +kernel, ⟨⟨""⟩, "", []⟩, by decide +kernel, rfl, by decide +kernel⟩
  rcases ((law namelessCircle Index.empty).circular ⟨⟨""⟩, .single refers⟩).2 with
    ⟨circle, -, warned⟩
  have unwarned : (namelessCircle.customVariables Index.empty).warnings.length = 0 := by
    decide +kernel
  rw [warned] at unwarned
  cases unwarned

end Calculation
end CharacterSheet
