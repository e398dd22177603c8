import CharacterSheet.Proofs.Dependency.Sooner
import CharacterSheet.Proofs.Statistic.VariableFixpoint

/-!
# Gates of custom variables and the order of evaluation

The conditions of a change to a custom variable are judged when the variable is
calculated, on an index that holds the values of the variables before it.  The
order of evaluation follows formulas only.  So a condition that reads another
variable sees its value only if formulas and the order of declaration happen to
put that variable first.  Otherwise it reads zero, whatever the value will be.
-/

namespace CharacterSheet

namespace Calculation

open Relation (TransGen)

/-- That a simple condition of a change to a variable reads the key of
another. -/
def Gates (calculation : Calculation) (read gated : VariableId) : Prop :=
  ∃ compiled ∈ calculation.compiled.changes, compiled.change.target = .customVariable gated ∧
    ∃ condition, .simple condition ∈ compiled.change.conditions ∧ read.indexKey ∈ condition.keys

/-- That a variable reads another one, in a formula or in a simple condition of
a change to it. -/
def Reads (calculation : Calculation) (reader read : VariableId) : Prop :=
  calculation.RefersTo reader read ∨
    reader ∈ calculation.declaredIds ∧ read ∈ calculation.declaredIds ∧
      calculation.Gates read reader

/-- No variable reads itself, directly or through others. -/
def ReadsAcyclic (calculation : Calculation) : Prop :=
  ∀ id, ¬ TransGen calculation.Reads id id

/-- The second variable is calculated behind the first, its conditions
included, on an index that holds the value published for the first. -/
def SeesPublished (calculation : Calculation) (index : Index) (read gated : VariableId) : Prop :=
  ∃ before definition later, definition.id = gated ∧
    (calculation.customVariables index).value = calculation.evaluateInOrder index before ++
      calculation.variableStat (calculation.indexAfter index before) definition :: later ∧
    ∃ published ∈ calculation.evaluateInOrder index before, published.id = read ∧
      (calculation.indexAfter index before).value read.indexKey =
        Numeric.orZero published.stat.total

variable {calculation : Calculation} {index : Index} {read gated : VariableId}

theorem ReadsAcyclic.references (acyclic : calculation.ReadsAcyclic) :
    calculation.ReferencesAcyclic := by
  intro id circle
  have reads : calculation.RefersTo ≤ calculation.Reads := fun _ _ refers => Or.inl refers
  exact acyclic id (TransGen.mono reads id id circle)

/-- A variable whose value is seen is calculated first. -/
theorem SeesPublished.precedes (acyclic : calculation.ReferencesAcyclic)
    (sees : calculation.SeesPublished index read gated) :
    DependencyGraph.Precedes read gated
      ((calculation.customVariables index).value.map (·.id)) := by
  rcases sees with ⟨before, definition, later, rfl, value, published, early, rfl, -⟩
  have distinct : ((calculation.customVariables index).value.map (·.id)).Nodup := by
    rw [map_id_customVariables, evaluationOrder_dependencies acyclic]
    exact (DependencyGraph.ordered_listing acyclic.dependencies).distinct
  have ids := congrArg (List.map VariableStat.id) value
  rw [List.map_append, List.map_cons] at ids
  rw [ids] at distinct ⊢
  have absent : definition.id ∉ (calculation.evaluateInOrder index before).map (·.id) :=
    fun member => List.disjoint_of_nodup_append distinct member List.mem_cons_self
  have front := DependencyGraph.precedes_of_mem (List.mem_map_of_mem early) absent
  exact front.mono (List.prefix_append _ _)

/-- A variable whose key nothing else publishes is seen by those calculated
behind it. -/
theorem value_indexAfter_of_mem (calculation : Calculation) {before after : List VariableDefinition}
    {definition : VariableDefinition} (fresh : index.get? definition.id.indexKey = none)
    (unclaimed : ∀ other ∈ before ++ after, definition.id.indexKey ∉ other.publishedKeys) :
    (calculation.indexAfter index (before ++ definition :: after)).value definition.id.indexKey =
      Numeric.orZero
        (calculation.variableStat (calculation.indexAfter index before) definition).stat.total := by
  have foreign : ∀ {definitions : List VariableDefinition}, definitions ⊆ before ++ after →
      definition.id.indexKey ∉ definitions.flatMap VariableDefinition.publishedKeys := by
    intro definitions inside member
    rcases List.mem_flatMap.mp member with ⟨other, listed, published⟩
    exact unclaimed other (inside listed) published
  have early : (calculation.indexAfter index before).get? definition.id.indexKey = none :=
    (get?_indexAfter_append [] before (foreign (List.subset_append_left before after))).trans fresh
  have shape : before ++ definition :: after = before ++ [definition] ++ after := by
    rw [List.append_assoc, List.singleton_append]
  have late : (calculation.indexAfter index (before ++ definition :: after)).get?
      definition.id.indexKey = some (Numeric.orZero
        (calculation.variableStat (calculation.indexAfter index before) definition).stat.total) := by
    rw [shape, get?_indexAfter_append _ _ (foreign (List.subset_append_right before after)),
      indexAfter_snoc]
    show ((Index.publishOrKeep _ definition.id.indexKey _).publishOrKeep definition.id.name _).get?
      definition.id.indexKey = _
    rw [Index.get?_publishOrKeep, Index.get?_publishOrKeep, early, if_pos rfl]
    rfl
  rw [Index.value, late]
  rfl

/-- The declarations are evaluated in an order that lists one of two before
the other. -/
theorem sortedDeclarations_of_precedes (acyclic : calculation.ReferencesAcyclic)
    (declared : gated ∈ calculation.declaredIds) (different : read ≠ gated)
    (precedes : DependencyGraph.Precedes read gated calculation.dependencies.listing) :
    ∃ before first middle second later, first.id = read ∧ second.id = gated ∧
      calculation.sortedDeclarations = before ++ first :: middle ++ second :: later := by
  have ids := calculation.map_id_sortedDeclarations
  rw [evaluationOrder_dependencies acyclic] at ids
  rcases precedes with ⟨early, late, split, notEarly⟩
  have listed : gated ∈ early ++ read :: late := by
    rw [← split, (DependencyGraph.perm_listing acyclic.dependencies).mem_iff, nodes_dependencies]
    exact declared
  have isLate : gated ∈ late := by
    rcases List.mem_append.mp listed with before | behind
    · exact absurd before notEarly
    · exact (List.mem_cons.mp behind).resolve_left different.symm
  rcases List.append_of_mem isLate with ⟨between, rest, rfl⟩
  rcases List.map_eq_append_iff.mp (ids.trans split) with ⟨before, behind, sorted, -, behindIds⟩
  rcases List.map_eq_cons_iff.mp behindIds with ⟨first, others, rfl, isRead, otherIds⟩
  rcases List.map_eq_append_iff.mp otherIds with ⟨middle, last, rfl, -, lastIds⟩
  rcases List.map_eq_cons_iff.mp lastIds with ⟨second, later, rfl, isGated, -⟩
  refine ⟨before, first, middle, second, later, isRead, isGated, ?_⟩
  rw [sorted, List.append_assoc, List.cons_append]

/-- A key that is no variable's name is published by its own variable only. -/
theorem not_mem_publishedKeys {read : VariableId} {other : VariableDefinition}
    (unclaimed : ∀ definition ∈ calculation.declarations, definition.id.name ≠ read.indexKey)
    (known : other ∈ calculation.declarations) (different : other.id ≠ read) :
    read.indexKey ∉ other.publishedKeys := by
  intro published
  rcases List.mem_pair.mp published with sameKey | sameName
  · exact different (VariableId.indexKey_injective sameKey.symm)
  · exact unclaimed other known sameName.symm

/-- A variable calculated first is seen, provided that nothing else publishes
its key. -/
theorem seesPublished_of_precedes (acyclic : calculation.ReferencesAcyclic)
    (declared : gated ∈ calculation.declaredIds) (different : read ≠ gated)
    (fresh : index.get? read.indexKey = none)
    (unclaimed : ∀ definition ∈ calculation.declarations, definition.id.name ≠ read.indexKey)
    (precedes : DependencyGraph.Precedes read gated calculation.dependencies.listing) :
    calculation.SeesPublished index read gated := by
  rcases sortedDeclarations_of_precedes acyclic declared different precedes with
    ⟨before, first, middle, second, later, rfl, rfl, sorted⟩
  have distinct : ((before ++ first :: middle ++ second :: later).map (·.id)).Nodup := by
    rw [← sorted, ((perm_sortedDeclarations acyclic).map _).nodup_iff]
    exact calculation.nodup_declaredIds
  rw [List.append_assoc, List.cons_append] at sorted distinct
  have others : ∀ other ∈ before ++ middle, first.id.indexKey ∉ other.publishedKeys := by
    intro other member
    have otherId : other.id ≠ first.id := by
      intro same
      rw [List.map_append, List.map_cons, List.nodup_middle, List.nodup_cons,
        ← List.map_append] at distinct
      refine distinct.1 (same ▸ List.mem_map_of_mem ?_)
      rw [← List.append_assoc]
      exact List.mem_append_left _ member
    have known : other ∈ calculation.declarations := by
      rw [← (perm_sortedDeclarations acyclic).mem_iff, sorted]
      rcases List.mem_append.mp member with early | between
      · exact List.mem_append_left _ early
      · exact List.mem_append_right _ (List.mem_cons_of_mem _ (List.mem_append_left _ between))
    exact not_mem_publishedKeys unclaimed known otherId
  have value := value_indexAfter_of_mem calculation fresh others
  have early : calculation.variableStat (calculation.indexAfter index before) first ∈
      calculation.evaluateInOrder index (before ++ first :: middle) := by
    rw [evaluateInOrder_append, evaluateInOrder]
    exact List.mem_append_right _ List.mem_cons_self
  have evaluated : ∃ rest, (calculation.customVariables index).value =
      calculation.evaluateInOrder index (before ++ first :: middle) ++
        calculation.variableStat (calculation.indexAfter index (before ++ first :: middle))
          second :: rest := by
    rw [customVariables_eq, sorted, ← List.cons_append, ← List.append_assoc]
    dsimp only
    rw [evaluateInOrder_append, evaluateInOrder]
    exact ⟨_, rfl⟩
  rcases evaluated with ⟨rest, evaluated⟩
  exact ⟨_, second, rest, rfl, evaluated, _, early, rfl, value⟩

/-- If references do not go round in a circle, a variable is seen by what is
calculated from another one exactly if going through the declared variables and
the references of formulas passes it first. -/
theorem seesPublished_iff_sooner (calculation : Calculation) (index : Index)
    {read gated : VariableId} (acyclic : calculation.ReferencesAcyclic)
    (readDeclared : read ∈ calculation.declaredIds)
    (gatedDeclared : gated ∈ calculation.declaredIds) (different : read ≠ gated)
    (fresh : index.get? read.indexKey = none)
    (unclaimed : ∀ definition ∈ calculation.declarations, definition.id.name ≠ read.indexKey) :
    calculation.SeesPublished index read gated ↔
      calculation.dependencies.Sooner read gated calculation.declaredIds := by
  have listing := DependencyGraph.precedes_listing_iff acyclic.dependencies different
    (nodes_dependencies ▸ readDeclared)
  rw [nodes_dependencies] at listing
  rw [← listing]
  constructor
  · intro sees
    have front := sees.precedes acyclic
    rwa [map_id_customVariables, evaluationOrder_dependencies acyclic] at front
  · exact seesPublished_of_precedes acyclic gatedDeclared different fresh unclaimed

/-- No variable reads itself if each reads those of smaller number. -/
theorem readsAcyclic_of_rank (rank : VariableId → Nat)
    (formulas : ∀ definition ∈ calculation.declarations,
      ∀ formula ∈ calculation.formulasOf definition, ∀ id ∈ calculation.declaredIds,
        id.indexKey ∈ formula.references → rank id < rank definition.id)
    (conditions : ∀ compiled ∈ calculation.compiled.changes,
      ∀ gated ∈ calculation.declaredIds, compiled.change.target = .customVariable gated →
        ∀ condition ∈ compiled.change.conditions, ∀ id ∈ calculation.declaredIds,
          id.indexKey ∈ PropertyCondition.keysAlone condition → rank id < rank gated) :
    calculation.ReadsAcyclic := by
  apply not_transGen_self_of_rank rank
  rintro reader read (refers | gates)
  · rcases refers with ⟨declared, definition, known, rfl, formula, listed, referred⟩
    exact formulas definition known formula listed read declared referred
  · rcases gates with ⟨reading, declared, compiled, known, targeted, condition, listed, reads⟩
    exact conditions compiled known reader reading targeted _ listed read declared reads

/-- A variable with a condition on another one that is declared behind it. -/
def gatedBefore (expression : String) : Calculation :=
  let gated := { Change.of (.customVariable ⟨"v"⟩) expression BonusType.untyped with
    conditions := [.simple ⟨"@customVariable.u", .equal, "5"⟩] }
  let read := Change.of (.customVariable ⟨"u"⟩) "5" BonusType.untyped
  let character := { Character.of "sample" with changes := [gated, read] }
  ⟨character, Compilation.ofCharacter character [], default, []⟩

/-- If the formula refers to the variable that the condition reads, the
reference puts that variable first. -/
theorem seesPublished_gatedBefore_reference :
    let calculation := gatedBefore "@customVariable.u"
    calculation.ReferencesAcyclic ∧ ⟨"u"⟩ ∈ calculation.declaredIds ∧
      ⟨"v"⟩ ∈ calculation.declaredIds ∧
      (∀ definition ∈ calculation.declarations, definition.id.name ≠ "customVariable.u") ∧
      calculation.SeesPublished Index.empty ⟨"u"⟩ ⟨"v"⟩ := by
  intro calculation
  have acyclic : calculation.ReferencesAcyclic :=
    referencesAcyclic_of_rank (fun id => if id.name = "v" then 1 else 0) (by decide +kernel)
  have readDeclared : ⟨"u"⟩ ∈ calculation.declaredIds := by decide +kernel
  have gatedDeclared : ⟨"v"⟩ ∈ calculation.declaredIds := by decide +kernel
  have unclaimed : ∀ definition ∈ calculation.declarations,
      definition.id.name ≠ "customVariable.u" := by decide +kernel
  have declared : calculation.declaredIds = [⟨"v"⟩, ⟨"u"⟩] := by decide +kernel
  have requirements : calculation.dependencies.requirements ⟨"v"⟩ = [⟨"u"⟩] := by decide +kernel
  have free : ¬ Relation.ReflTransGen calculation.dependencies.Requires ⟨"u"⟩ ⟨"v"⟩ := by
    intro chain
    have none : calculation.dependencies.requirements ⟨"u"⟩ = [] := by decide +kernel
    rcases Relation.ReflTransGen.cases_head chain with same | ⟨next, requires, -⟩
    · exact absurd same (by decide)
    · have wanted := DependencyGraph.mem_requirements.mpr requires
      rw [none] at wanted
      cases wanted
  have sooner : calculation.dependencies.Sooner ⟨"u"⟩ ⟨"v"⟩ calculation.declaredIds := by
    rw [declared]
    refine .within ?_
    rw [requirements]
    exact .here free
  exact ⟨acyclic, readDeclared, gatedDeclared, unclaimed,
    (seesPublished_iff_sooner calculation Index.empty acyclic readDeclared gatedDeclared
      (by decide) (by decide +kernel) unclaimed).mpr sooner⟩

/-- A condition is judged before the variable that it reads is calculated,
although nothing reads in a circle. -/
theorem not_seesPublished_gatedBefore :
    ¬ ∀ (calculation : Calculation) (index : Index) (read gated : VariableId),
      calculation.ReadsAcyclic → read ∈ calculation.declaredIds →
        gated ∈ calculation.declaredIds → read ≠ gated → calculation.Gates read gated →
          calculation.SeesPublished index read gated := by
  intro law
  have acyclic : (gatedBefore "1").ReadsAcyclic :=
    readsAcyclic_of_rank (fun id => if id.name = "v" then 1 else 0) (by decide +kernel)
      (by decide +kernel)
  have gates : (gatedBefore "1").Gates ⟨"u"⟩ ⟨"v"⟩ :=
    ⟨_, List.mem_cons_self, rfl, _, List.mem_cons_self, by decide +kernel⟩
  have sees := law (gatedBefore "1") Index.empty ⟨"u"⟩ ⟨"v"⟩ acyclic (by decide +kernel)
    (by decide +kernel) (by decide) gates
  have precedes := sees.precedes acyclic.references
  have order : (evaluationOrder (gatedBefore "1").dependencies).1 = [⟨"v"⟩, ⟨"u"⟩] := by
    decide +kernel
  rw [map_id_customVariables, order] at precedes
  have reverse : DependencyGraph.Precedes (⟨"v"⟩ : VariableId) ⟨"u"⟩ [⟨"v"⟩, ⟨"u"⟩] :=
    ⟨[], [⟨"u"⟩], rfl, List.not_mem_nil⟩
  exact precedes.asymm (by decide) reverse

end Calculation
end CharacterSheet
