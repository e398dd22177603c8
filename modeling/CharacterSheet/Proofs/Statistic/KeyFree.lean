import CharacterSheet.Proofs.Change.KeyFree
import CharacterSheet.Proofs.Statistic.VariableFixpoint
import CharacterSheet.Statistic.Resource

/-!
# Contributions that do not depend on the index

If no content names a key, the changes contribute the same on every index, and
custom variables and resources have the same values there.  Moreover no custom
variable refers to another one, so that all of them are published.
-/

namespace CharacterSheet
namespace Calculation

/-- No content that the calculation reads names a key. -/
structure KeyFree (calculation : Calculation) : Prop where
  changes : ∀ compiled ∈ calculation.compiled.changes,
    compiled.change.keys calculation.entities = []
  contextual : ∀ compiled ∈ calculation.compiled.contextual,
    ∀ change ∈ compiled.contextual.changes, change.keys calculation.entities = []
  special : ∀ special ∈ calculation.compiled.special, special.keys = []

/-- Content of a character that names no key makes such a calculation, whatever
entities are left out. -/
theorem keyFree_ofCharacter {character : Character} (free : character.KeyFree)
    {entities : List Entity} (within : entities ⊆ character.entities) (table : BonusTable) :
    KeyFree ⟨character, Compilation.ofCharacter character entities, table, entities⟩ := by
  have active : ∀ content ∈ character.contents entities,
      content.keys character.entities = [] := by
    intro content member
    apply free
    unfold Character.contents at member ⊢
    simp only [List.mem_cons, List.mem_append] at member ⊢
    rcases member with own | others | ofEntity
    · exact Or.inl own
    · exact Or.inr (Or.inl others)
    · exact Or.inr (Or.inr (List.map_subset _ within ofEntity))
  have change : ∀ content ∈ character.contents entities,
      ∀ change ∈ content.changes ++ content.contextual.flatMap (·.changes),
        change.keys entities = [] := by
    intro content member change listed
    have none := (List.append_eq_nil_iff.mp (active content member)).1
    have whole := List.flatMap_eq_nil_iff.mp none change listed
    exact List.subset_nil.mp (whole ▸ Change.keys_subset within)
  constructor
  · intro compiled member
    rcases List.mem_flatMap.mp member with ⟨content, listed, inside⟩
    rcases List.mem_map.mp inside with ⟨plain, known, rfl⟩
    exact change content listed plain (List.mem_append_left _ known)
  · intro compiled member plain known
    rcases List.mem_flatMap.mp member with ⟨content, listed, inside⟩
    rcases List.mem_map.mp inside with ⟨contextual, given, rfl⟩
    exact change content listed plain
      (List.mem_append_right _ (List.mem_flatMap.mpr ⟨contextual, given, known⟩))
  · intro special member
    rcases List.mem_flatMap.mp member with ⟨content, listed, known⟩
    have none := (List.append_eq_nil_iff.mp (active content listed)).2
    exact List.flatMap_eq_nil_iff.mp none special known

variable {calculation : Calculation}

/-- Changes that name no key contribute the same on every index. -/
theorem contributions_of_keyFree {changes : List CompiledChange}
    (free : ∀ compiled ∈ changes, compiled.change.keys calculation.entities = [])
    (first second : Index) :
    calculation.contributions first changes = calculation.contributions second changes := by
  have admitted : ∀ compiled ∈ changes,
      calculation.admits first compiled = calculation.admits second compiled := by
    intro compiled member
    refine Condition.allHold_congr fun condition listed key reads => ?_
    rw [Change.keys_of_keyFree (free compiled member) condition listed] at reads
    exact absurd reads List.not_mem_nil
  have source : ∀ compiled ∈ changes, compiled.source first = compiled.source second := by
    intro compiled member
    have plain := Change.references_of_keyFree (free compiled member)
    rw [CompiledChange.source, CompiledChange.source,
      Formula.evaluate_of_keyFree plain first second]
  funext selects
  rw [contributions, contributions]
  have selected : ∀ compiled ∈ changes,
      (selects compiled.change.target && calculation.admits first compiled) =
        (selects compiled.change.target && calculation.admits second compiled) := by
    intro compiled member
    rw [admitted compiled member]
  rw [List.filter_congr selected]
  exact List.map_congr_left fun compiled member => source compiled (List.mem_filter.mp member).1

namespace KeyFree

variable (free : calculation.KeyFree) (first second : Index)

include free

theorem sources : calculation.sources first = calculation.sources second :=
  contributions_of_keyFree free.changes first second

theorem sourcesOf : calculation.sourcesOf first = calculation.sourcesOf second := by
  funext target
  rw [Calculation.sourcesOf, Calculation.sourcesOf, free.sources first second]

theorem contextualSources :
    calculation.contextualSources first = calculation.contextualSources second := by
  funext kind
  apply contributions_of_keyFree
  intro compiled member
  rcases List.mem_flatMap.mp member with ⟨contextual, mandatory, inside⟩
  rcases List.mem_map.mp inside with ⟨change, listed, rfl⟩
  exact free.contextual contextual (List.mem_filter.mp mandatory).1 change listed

theorem evaluate {special : SpecialChange} (known : special ∈ calculation.compiled.special)
    {formula : Formula} (listed : formula ∈ special.formulas) :
    formula.evaluate first = formula.evaluate second :=
  Formula.evaluate_of_keyFree
    (List.flatMap_eq_nil_iff.mp (free.special special known) formula listed) first second

theorem resources : calculation.resources first = calculation.resources second := by
  have stat : ∀ resource ∈ distinctResources calculation.compiled.resources,
      calculation.resourceStat first resource = calculation.resourceStat second resource := by
    intro resource member
    rcases List.mem_filterMap.mp member with ⟨id, _, found⟩
    rcases List.mem_filterMap.mp (List.mem_of_find?_eq_some found) with ⟨special, known, isResource⟩
    have special_eq : special = .resource resource := by
      cases special with
      | resource definition => exact congrArg SpecialChange.resource (Option.some.inj isResource)
      | _ => cases isResource
    subst special_eq
    have property : ∀ (property : ResourceProperty) (formula : Formula),
        formula ∈ (SpecialChange.resource resource).formulas →
          calculation.resourceProperty first resource property formula =
            calculation.resourceProperty second resource property formula := by
      intro property formula listed
      rw [resourceProperty, resourceProperty, free.evaluate first second known listed,
        free.sourcesOf first second]
    have maximum := property .maximum resource.maximum (by simp [SpecialChange.formulas])
    have minimum := property .minimum resource.minimum (by simp [SpecialChange.formulas])
    have charges := property .chargesPerUse resource.chargesPerUse (by simp [SpecialChange.formulas])
    have recharge := property .recharge resource.recharge (by simp [SpecialChange.formulas])
    rw [resourceStat, resourceStat, maximum, minimum, charges, recharge]
    cases calculation.character.resources.find? resource.id with
    | some state => rfl
    | none =>
      cases initial : resource.initial with
      | none => rfl
      | some formula =>
        have given := property .initial formula (by simp [SpecialChange.formulas, initial])
        dsimp only
        rw [given]
  rw [Calculation.resources, Calculation.resources, List.map_congr_left stat]

end KeyFree

/-! ## Custom variables -/

/-- No base source of some variables names a key. -/
def SourcesKeyFree (declared : List VariableDefinition) : Prop :=
  ∀ definition ∈ declared, ∀ source ∈ definition.sources, source.formula.references = []

theorem SourcesKeyFree.declare {declared : List VariableDefinition}
    (before : SourcesKeyFree declared) {definition : VariableDefinition}
    (added : ∀ source ∈ definition.sources, source.formula.references = []) :
    SourcesKeyFree (VariableDefinition.declare declared definition) := by
  intro known member
  unfold VariableDefinition.declare at member
  split at member
  · rcases List.mem_map.mp member with ⟨old, listed, rfl⟩
    split
    · intro source inside
      rcases List.mem_append.mp inside with kept | new
      · exact before old listed source kept
      · exact added source new
    · exact before old listed
  · rcases List.mem_append.mp member with old | new
    · exact before known old
    · rw [List.mem_singleton.mp new]
      exact added

theorem SourcesKeyFree.declareBare {declared : List VariableDefinition}
    (before : SourcesKeyFree declared) (id : VariableId) :
    SourcesKeyFree (VariableDefinition.declareBare declared id) := by
  intro known member
  unfold VariableDefinition.declareBare at member
  split at member
  · exact before known member
  · rcases List.mem_append.mp member with old | new
    · exact before known old
    · rw [List.mem_singleton.mp new]
      exact fun _ inside => absurd inside List.not_mem_nil

/-- The value of a number written out names no key. -/
theorem references_constant (id : VariableId) (name : String) (value : Float) :
    ∀ source ∈ (VariableDefinition.constant id name value).sources,
      source.formula.references = [] := by
  intro source member
  rw [List.mem_singleton.mp member]
  have none := Formula.keysIn_eq_nil (Numeric.at_not_mem_plainText value)
  simp only [VariableSource.base, Formula.references, Formula.texts, List.flatMap_cons,
    List.flatMap_nil, none]
  rfl

namespace KeyFree

variable (free : calculation.KeyFree)

include free

theorem sourcesKeyFree_definitions :
    SourcesKeyFree (calculation.compiled.definitions calculation.character) := by
  intro definition member source inside
  rcases List.mem_append.mp member with given | generated
  · rcases List.mem_filterMap.mp given with ⟨special, known, isDefinition⟩
    cases special with
    | customVariable plain =>
      cases isDefinition
      exact List.flatMap_eq_nil_iff.mp (free.special _ known) _ (List.mem_map_of_mem inside)
    | _ => cases isDefinition
  · rcases List.mem_flatMap.mp generated with ⟨tracks, _, listed⟩
    split at listed
    · exact absurd listed List.not_mem_nil
    · simp only [SpellTracks.definitions, List.mem_append, List.mem_map,
        List.mem_singleton] at listed
      rcases listed with (⟨_, _, rfl⟩ | ⟨_, _, rfl⟩) | rfl <;>
        exact references_constant _ _ _ source inside

theorem sourcesKeyFree_declarations : SourcesKeyFree calculation.declarations := by
  have definitions := free.sourcesKeyFree_definitions
  have declared : SourcesKeyFree ((calculation.compiled.definitions calculation.character).foldl
      VariableDefinition.declare []) :=
    List.foldlRecOn _ _ (fun _ none => absurd none List.not_mem_nil)
      fun _ before definition member => before.declare (definitions definition member)
  exact List.foldlRecOn _ _ declared fun _ before id _ => before.declareBare id

theorem references_formulasOf {definition : VariableDefinition}
    (declared : definition ∈ calculation.declarations) {formula : Formula}
    (listed : formula ∈ calculation.formulasOf definition) : formula.references = [] := by
  rcases List.mem_append.mp listed with own | ofChange
  · rcases List.mem_map.mp own with ⟨source, inside, rfl⟩
    exact free.sourcesKeyFree_declarations definition declared source inside
  · rcases List.mem_map.mp ofChange with ⟨compiled, selected, rfl⟩
    exact Change.references_of_keyFree (free.changes compiled (List.mem_filter.mp selected).1)

/-- No variable refers to another one, so references do not go round in a
circle. -/
theorem referencesAcyclic : calculation.ReferencesAcyclic := by
  apply referencesAcyclic_of_rank fun _ => 0
  intro definition declared formula listed id _ refers
  rw [free.references_formulasOf declared listed] at refers
  exact absurd refers List.not_mem_nil

theorem variableStat (first second : Index) {definition : VariableDefinition}
    (declared : definition ∈ calculation.declarations) :
    calculation.variableStat first definition = calculation.variableStat second definition := by
  apply variableStat_congr
  · intro formula listed key refers
    rw [free.references_formulasOf declared listed] at refers
    exact absurd refers List.not_mem_nil
  · intro compiled known _ condition listed key reads
    rw [Change.keys_of_keyFree (free.changes compiled known) condition listed] at reads
    exact absurd reads List.not_mem_nil

theorem evaluateInOrder (first second : Index) {definitions : List VariableDefinition}
    (declared : definitions ⊆ calculation.declarations) :
    calculation.evaluateInOrder first definitions =
      calculation.evaluateInOrder second definitions := by
  induction definitions generalizing first second with
  | nil => rfl
  | cons definition rest inductionHypothesis =>
    have parts := List.cons_subset.mp declared
    rw [Calculation.evaluateInOrder, Calculation.evaluateInOrder,
      free.variableStat first second parts.1]
    exact congrArg _ (inductionHypothesis _ _ parts.2)

theorem customVariables (first second : Index) :
    calculation.customVariables first = calculation.customVariables second := by
  have sorted : calculation.sortedDeclarations ⊆ calculation.declarations :=
    (perm_sortedDeclarations free.referencesAcyclic).subset
  rw [customVariables_eq, customVariables_eq, free.evaluateInOrder first second sorted]

theorem warnings_customVariables (index : Index) :
    (calculation.customVariables index).warnings = [] := by
  change (evaluationOrder calculation.dependencies).2 = []
  rw [evaluationOrder_dependencies free.referencesAcyclic]

end KeyFree

end Calculation
end CharacterSheet
