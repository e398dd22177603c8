import CharacterSheet.Proofs.Condition.Reads
import CharacterSheet.Proofs.Index.Publishing
import CharacterSheet.Proofs.Statistic.VariableOrder

/-!
# Custom variables reach their fixpoint

A variable is evaluated on an index that holds the values of the variables
before it, whereas its value is meant for an index that holds those of all
variables.  The two indexes differ in the keys of the variable itself and of
those after it.  The order of evaluation is such that a formula does not refer
to these keys, and conditions must not read keys of custom variables at all.
So evaluating a variable again on the index at the end gives the same value.

The order does not know of the variable with the empty name, because its key
belongs to no variable.  A formula that reads this key all the same may read it
too early.
-/

namespace CharacterSheet

namespace VariableDefinition

/-- The keys under which the variable is published. -/
def publishedKeys (definition : VariableDefinition) : List String :=
  [definition.id.indexKey, definition.id.name]

end VariableDefinition

namespace Calculation

/-- The keys under which custom variables are published. -/
def variableKeys (calculation : Calculation) : List String :=
  calculation.declarations.flatMap VariableDefinition.publishedKeys

/-- Custom variables can be evaluated one after the other: references do not go
round in a circle, every key is published once, formulas refer to custom
variables by the keys of their namespace, and conditions do not read them. -/
structure SelfContained (calculation : Calculation) (index : Index) : Prop where
  acyclic : calculation.ReferencesAcyclic
  distinct : calculation.variableKeys.Nodup
  fresh : ∀ key ∈ calculation.variableKeys, index.get? key = none
  formulas : ∀ definition ∈ calculation.declarations,
    ∀ formula ∈ calculation.formulasOf definition, ∀ key ∈ formula.references,
      key ∈ calculation.variableKeys → ∃ id ∈ calculation.declaredIds, key = id.indexKey
  conditions : ∀ compiled ∈ calculation.compiled.changes, ∀ id ∈ calculation.declaredIds,
    compiled.change.target = .customVariable id →
      ∀ condition ∈ compiled.change.conditions, ∀ key ∈ condition.keys calculation.entities,
        key ∉ calculation.variableKeys

/-- Every custom variable is published under both keys with the value that it
has on the index at the end. -/
def SettlesVariables (calculation : Calculation) (index : Index) : Prop :=
  let update := (calculation.customVariables index).update
  let final := (index.apply update).1
  ∀ definition ∈ calculation.declarations,
    let total := (calculation.variableStat final definition).stat.total
    ∀ key ∈ definition.publishedKeys,
      update.get? key = some total ∧ final.get? key = some (Numeric.orZero total)

/-- The index that variables evaluated one after the other leave behind. -/
def indexAfter (calculation : Calculation) (index : Index)
    (definitions : List VariableDefinition) : Index :=
  (index.publishAll ((calculation.evaluateInOrder index definitions).flatMap (·.published))).1

variable {calculation : Calculation} {index first second : Index}

/-- A variable has the same value on indexes that agree on what it reads. -/
theorem variableStat_congr {definition : VariableDefinition}
    (formulas : ∀ formula ∈ calculation.formulasOf definition, ∀ key ∈ formula.references,
      first.value key = second.value key)
    (conditions : ∀ compiled ∈ calculation.compiled.changes,
      compiled.change.target = .customVariable definition.id →
        ∀ condition ∈ compiled.change.conditions,
          Index.AgreeOn (condition.keys calculation.entities) first second) :
    calculation.variableStat first definition = calculation.variableStat second definition := by
  have bases : (definition.sources.map fun source =>
        Source.of (source.formula.evaluate first) source.bonusType source.name source.name) =
      definition.sources.map fun source =>
        Source.of (source.formula.evaluate second) source.bonusType source.name source.name := by
    apply List.map_congr_left
    intro source member
    have same := Formula.evaluate_congr
      (formulas source.formula (List.mem_append_left _ (List.mem_map_of_mem member)))
    rw [same]
  have admitted : ∀ compiled ∈ calculation.compiled.changes,
      (compiled.change.target == .customVariable definition.id &&
          calculation.admits first compiled) =
        (compiled.change.target == .customVariable definition.id &&
          calculation.admits second compiled) := by
    intro compiled member
    by_cases targeted : compiled.change.target = .customVariable definition.id
    · have same := Condition.allHold_congr (conditions compiled member targeted)
      rw [admits, admits, same]
    · rw [beq_false_of_ne targeted, Bool.false_and, Bool.false_and]
  have changes : calculation.sourcesOf first (.customVariable definition.id) =
      calculation.sourcesOf second (.customVariable definition.id) := by
    rw [sourcesOf, sourcesOf, sources, sources, contributions, contributions,
      List.filter_congr admitted]
    apply List.map_congr_left
    intro compiled member
    rcases List.mem_filter.mp member with ⟨known, selected⟩
    have targets : compiled ∈ calculation.compiled.changes.filter fun compiled =>
        compiled.change.target == .customVariable definition.id :=
      List.mem_filter.mpr ⟨known, (Bool.and_eq_true_iff.mp selected).1⟩
    have same := Formula.evaluate_congr
      (formulas compiled.change.formula (List.mem_append_right _ (List.mem_map_of_mem targets)))
    rw [CompiledChange.source, CompiledChange.source, same]
  rw [variableStat, variableStat, bases, changes]

theorem map_fst_published (definitions : List VariableDefinition) :
    ((calculation.evaluateInOrder index definitions).flatMap (·.published)).map Prod.fst =
      definitions.flatMap VariableDefinition.publishedKeys := by
  induction definitions generalizing index with
  | nil => rfl
  | cons definition rest inductionHypothesis =>
    rw [evaluateInOrder, List.flatMap_cons, List.map_append, inductionHypothesis,
      List.flatMap_cons]
    rfl

/-- Evaluating more variables goes on from what the earlier ones published. -/
theorem evaluateInOrder_append (before after : List VariableDefinition) :
    calculation.evaluateInOrder index (before ++ after) =
      calculation.evaluateInOrder index before ++
        calculation.evaluateInOrder (calculation.indexAfter index before) after := by
  induction before generalizing index with
  | nil => rfl
  | cons definition rest inductionHypothesis =>
    have next : ∀ published : VariableStat,
        published = calculation.variableStat index definition →
        calculation.indexAfter
            (published.published.foldl
              (fun index entry => index.publishOrKeep entry.1 entry.2) index) rest =
          calculation.indexAfter index (definition :: rest) := by
      rintro _ rfl
      rw [indexAfter, indexAfter, Index.publishAll_fst, Index.publishAll_fst, evaluateInOrder,
        List.flatMap_cons, List.foldl_append]
    rw [List.cons_append, evaluateInOrder, inductionHypothesis, next _ rfl, evaluateInOrder,
      List.cons_append]

theorem indexAfter_snoc (before : List VariableDefinition) (definition : VariableDefinition) :
    calculation.indexAfter index (before ++ [definition]) =
      (calculation.variableStat (calculation.indexAfter index before) definition).published.foldl
        (fun index entry => index.publishOrKeep entry.1 entry.2)
        (calculation.indexAfter index before) := by
  have earlier : calculation.indexAfter index before =
      ((calculation.evaluateInOrder index before).flatMap (·.published)).foldl
        (fun index entry => index.publishOrKeep entry.1 entry.2) index := by
    rw [indexAfter, Index.publishAll_fst]
  rw [indexAfter, evaluateInOrder_append, List.flatMap_append, Index.publishAll_fst,
    List.foldl_append, ← earlier, evaluateInOrder, evaluateInOrder, List.flatMap_singleton]

/-- Variables evaluated later leave other keys than their own alone. -/
theorem get?_indexAfter_append (before after : List VariableDefinition) {key : String}
    (other : key ∉ after.flatMap VariableDefinition.publishedKeys) :
    (calculation.indexAfter index (before ++ after)).get? key =
      (calculation.indexAfter index before).get? key := by
  have keys : ((calculation.evaluateInOrder (calculation.indexAfter index before)
      after).flatMap (·.published)).map Prod.fst =
        after.flatMap VariableDefinition.publishedKeys :=
    map_fst_published after
  rw [← keys] at other
  rw [indexAfter, evaluateInOrder_append, List.flatMap_append, Index.get?_publishAll,
    List.lookup_append, lookup_eq_none_of_not_mem other, Option.or_none, indexAfter,
    Index.get?_publishAll]

/-- What the phase publishes, in the order of evaluation. -/
theorem update_customVariables (calculation : Calculation) (index : Index) :
    (calculation.customVariables index).update =
      Index.Update.ofList ((calculation.evaluateInOrder index
        calculation.sortedDeclarations).flatMap (·.published)) :=
  rfl

namespace SelfContained

variable (selfContained : calculation.SelfContained index)

include selfContained

theorem perm_sortedKeys :
    (calculation.sortedDeclarations.flatMap VariableDefinition.publishedKeys).Perm
      calculation.variableKeys :=
  (perm_sortedDeclarations selfContained.acyclic).flatMap_right _

theorem nodup_sortedKeys :
    (calculation.sortedDeclarations.flatMap VariableDefinition.publishedKeys).Nodup :=
  selfContained.perm_sortedKeys.nodup_iff.mpr selfContained.distinct

/-- Applying the update of the phase gives the index that the evaluation itself
ends with. -/
theorem get?_apply (key : String) :
    (index.apply (calculation.customVariables index).update).1.get? key =
      (calculation.indexAfter index calculation.sortedDeclarations).get? key := by
  rw [update_customVariables, indexAfter]
  apply Index.get?_apply_ofList
  rw [map_fst_published]
  exact selfContained.nodup_sortedKeys

theorem mem_declarations_of_split {before after : List VariableDefinition}
    {definition : VariableDefinition}
    (split : calculation.sortedDeclarations = before ++ definition :: after) :
    definition ∈ calculation.declarations := by
  apply (perm_sortedDeclarations selfContained.acyclic).subset
  rw [split]
  exact List.mem_append_right _ List.mem_cons_self

theorem laterKeys_subset {before after : List VariableDefinition}
    (split : calculation.sortedDeclarations = before ++ after) :
    after.flatMap VariableDefinition.publishedKeys ⊆ calculation.variableKeys := by
  have keys := selfContained.perm_sortedKeys
  rw [split, List.flatMap_append] at keys
  exact List.Subset.trans (List.subset_append_right _ _) keys.subset

/-- A formula refers to no key that is published later than it is evaluated. -/
theorem not_mem_laterKeys (named : ∀ id, ¬ calculation.RefersTo id ⟨""⟩)
    {before after : List VariableDefinition} {definition : VariableDefinition}
    (split : calculation.sortedDeclarations = before ++ definition :: after)
    {formula : Formula} (listed : formula ∈ calculation.formulasOf definition) {key : String}
    (referred : key ∈ formula.references) :
    key ∉ (definition :: after).flatMap VariableDefinition.publishedKeys := by
  intro later
  have declared := selfContained.mem_declarations_of_split split
  rcases selfContained.formulas definition declared formula listed key referred
    (selfContained.laterKeys_subset split later) with ⟨id, known, rfl⟩
  have refers : calculation.RefersTo definition.id id :=
    ⟨known, definition, declared, rfl, formula, listed, referred⟩
  have nonempty : id.name ≠ "" := by
    intro empty
    have nameless : id = ⟨""⟩ := congrArg VariableId.mk empty
    exact named definition.id (nameless ▸ refers)
  rcases List.mem_map.mp (mem_before_of_refersTo selfContained.acyclic split refers nonempty)
    with ⟨earlier, member, rfl⟩
  have earlierKey : earlier.id.indexKey ∈ before.flatMap VariableDefinition.publishedKeys :=
    List.mem_flatMap.mpr ⟨earlier, member, List.mem_cons_self⟩
  have sortedKeys := selfContained.nodup_sortedKeys
  rw [split, List.flatMap_append] at sortedKeys
  exact List.disjoint_of_nodup_append sortedKeys earlierKey later

/-- When a variable is evaluated, it has the value that it has at the end. -/
theorem variableStat_indexAfter (named : ∀ id, ¬ calculation.RefersTo id ⟨""⟩)
    {before after : List VariableDefinition} {definition : VariableDefinition}
    (split : calculation.sortedDeclarations = before ++ definition :: after) :
    calculation.variableStat (calculation.indexAfter index before) definition =
      calculation.variableStat (index.apply (calculation.customVariables index).update).1
        definition := by
  have agree : ∀ key, key ∉ (definition :: after).flatMap VariableDefinition.publishedKeys →
      (calculation.indexAfter index before).get? key =
        (index.apply (calculation.customVariables index).update).1.get? key := by
    intro key other
    rw [selfContained.get?_apply, split, get?_indexAfter_append _ _ other]
  have declared : definition.id ∈ calculation.declaredIds :=
    List.mem_map_of_mem (selfContained.mem_declarations_of_split split)
  apply variableStat_congr
  · intro formula listed key referred
    rw [Index.value, Index.value,
      agree key (selfContained.not_mem_laterKeys named split listed referred)]
  · intro compiled known targeted condition listed key reads
    apply agree
    intro later
    exact selfContained.conditions compiled known definition.id declared targeted condition
      listed key reads (selfContained.laterKeys_subset split later)

/-- From any point of the evaluation on, every variable gets the value that it
has on the index at the end. -/
theorem evaluateInOrder_indexAfter (named : ∀ id, ¬ calculation.RefersTo id ⟨""⟩)
    {before after : List VariableDefinition}
    (split : calculation.sortedDeclarations = before ++ after) :
    calculation.evaluateInOrder (calculation.indexAfter index before) after =
      after.map (calculation.variableStat
        (index.apply (calculation.customVariables index).update).1) := by
  induction after generalizing before with
  | nil => rfl
  | cons definition rest inductionHypothesis =>
    have shape : before ++ definition :: rest = before ++ [definition] ++ rest := by
      rw [List.append_assoc, List.singleton_append]
    have others := inductionHypothesis (split.trans shape)
    rw [indexAfter_snoc] at others
    rw [evaluateInOrder, others, List.map_cons,
      selfContained.variableStat_indexAfter named split]

theorem evaluateInOrder_eq_map (named : ∀ id, ¬ calculation.RefersTo id ⟨""⟩) :
    calculation.evaluateInOrder index calculation.sortedDeclarations =
      calculation.sortedDeclarations.map
        (calculation.variableStat (index.apply (calculation.customVariables index).update).1) :=
  selfContained.evaluateInOrder_indexAfter named (List.nil_append _).symm

end SelfContained

/-- If custom variables can be evaluated one after the other and no formula
refers to the variable with the empty name, the phase publishes every variable
with the value that it has on the index at the end. -/
theorem settlesVariables (calculation : Calculation) (index : Index)
    (selfContained : calculation.SelfContained index)
    (named : ∀ id, ¬ calculation.RefersTo id ⟨""⟩) : calculation.SettlesVariables index := by
  unfold SettlesVariables
  intro update final definition declared total key published
  have entries : update = Index.Update.ofList ((calculation.sortedDeclarations.map
      (calculation.variableStat final)).flatMap (·.published)) := by
    rw [← selfContained.evaluateInOrder_eq_map named]
    exact update_customVariables calculation index
  have keys : ((calculation.sortedDeclarations.map
      (calculation.variableStat final)).flatMap (·.published)).map Prod.fst =
        calculation.sortedDeclarations.flatMap VariableDefinition.publishedKeys := by
    rw [← selfContained.evaluateInOrder_eq_map named, map_fst_published]
  have sorted : definition ∈ calculation.sortedDeclarations :=
    (perm_sortedDeclarations selfContained.acyclic).mem_iff.mpr declared
  have entry : (key, total) ∈ (calculation.sortedDeclarations.map
      (calculation.variableStat final)).flatMap (·.published) := by
    refine List.mem_flatMap.mpr ⟨_, List.mem_map_of_mem sorted, ?_⟩
    simp only [VariableDefinition.publishedKeys, List.mem_cons, List.not_mem_nil,
      or_false] at published
    rcases published with rfl | rfl
    · exact List.mem_cons_self
    · exact List.mem_cons_of_mem _ List.mem_cons_self
  have distinct := keys ▸ selfContained.nodup_sortedKeys
  have found : update.get? key = some total := by
    rw [entries, Index.Update.get?_ofList distinct]
    exact lookup_eq_some_of_mem distinct entry
  have new : index.get? key = none :=
    selfContained.fresh key (List.mem_flatMap.mpr ⟨definition, declared, published⟩)
  refine ⟨found, ?_⟩
  rw [Index.get?_apply, new, found]
  rfl

/-- The calculation for a character with nothing but changes to variables, each
given by its name and its formula. -/
def ofVariables (formulas : List (String × String)) : Calculation :=
  let character : Character := { Character.of "sample" with
    changes := formulas.map fun entry =>
      Change.of (.customVariable ⟨entry.1⟩) entry.2 BonusType.untyped }
  ⟨character, Compilation.ofCharacter character [], default, []⟩

/-- A variable that is declared before the one it refers to. -/
def forwardReference : Calculation :=
  ofVariables [("kiPool", "@customVariable.monkLevel + 1"), ("monkLevel", "@character.level")]

theorem settlesVariables_forwardReference :
    forwardReference.SelfContained (Index.ofList [("character.level", 5)]) ∧
      (∀ id, ¬ forwardReference.RefersTo id ⟨""⟩) ∧
      forwardReference.SettlesVariables (Index.ofList [("character.level", 5)]) := by
  have selfContained :
      forwardReference.SelfContained (Index.ofList [("character.level", 5)]) :=
    { acyclic := referencesAcyclic_of_rank (fun id => if id.name = "kiPool" then 1 else 0)
        (by decide +kernel)
      distinct := by decide +kernel
      fresh := by decide +kernel
      formulas := by decide +kernel
      conditions := by decide +kernel }
  have declared : (⟨""⟩ : VariableId) ∉ forwardReference.declaredIds := by decide +kernel
  have named : ∀ id, ¬ forwardReference.RefersTo id ⟨""⟩ :=
    fun _ refers => declared refers.1
  exact ⟨selfContained, named, settlesVariables _ _ selfContained named⟩

/-- A variable that reads the key of the variable with the empty name. -/
def namelessReference : Calculation :=
  ofVariables [("a", "@customVariable."), ("", "5")]

/-- A reference to the variable with the empty name is read too early. -/
theorem not_settlesVariables_nameless :
    ¬ ∀ (calculation : Calculation) (index : Index),
      calculation.SelfContained index → calculation.SettlesVariables index := by
  intro law
  have selfContained : namelessReference.SelfContained Index.empty :=
    { acyclic := referencesAcyclic_of_rank (fun id => if id.name = "" then 0 else 1)
        (by decide +kernel)
      distinct := by decide +kernel
      fresh := by decide +kernel
      formulas := by decide +kernel
      conditions := by decide +kernel }
  have declared : (⟨⟨"a"⟩, "a", []⟩ : VariableDefinition) ∈ namelessReference.declarations := by
    decide +kernel
  have settled := law namelessReference Index.empty selfContained _ declared "a"
    (List.mem_cons_of_mem _ List.mem_cons_self)
  exact absurd settled.1 (by decide +kernel)

end Calculation
end CharacterSheet
