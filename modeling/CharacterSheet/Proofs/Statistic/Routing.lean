import CharacterSheet.Proofs.Bonus.Incremental
import CharacterSheet.Proofs.Numeric.Zero
import CharacterSheet.Proofs.Statistic.VariableOrder
import CharacterSheet.Statistic.Resource

/-!
# Where changes to custom variables count

A change to a custom variable counts in the variable of that name and in the
property of a resource whose key is that name.  Which of these are calculated
is decided in two phases: one evaluates the declared variables, the other the
properties of all resources that count.  Here the statistics of both are listed
as tallies, each with its place, with the index it is read from, and with what
it is based on beside changes.
-/

namespace CharacterSheet

theorem append_cons_inj_of_not_mem {α : Type} {mark : α} {before after first second : List α}
    (notFirst : mark ∉ first) (notSecond : mark ∉ second)
    (same : before ++ mark :: first = after ++ mark :: second) :
    before = after ∧ first = second := by
  rcases List.append_eq_append_iff.mp same with ⟨between, rfl, rest⟩ | ⟨between, rfl, rest⟩
  · cases between with
    | nil => exact ⟨(List.append_nil _).symm, (List.cons.inj rest).2⟩
    | cons _ more =>
      refine absurd ?_ notFirst
      rw [(List.cons.inj rest).2]
      exact List.mem_append_right _ List.mem_cons_self
  · cases between with
    | nil => exact ⟨List.append_nil _, (List.cons.inj rest).2.symm⟩
    | cons _ more =>
      refine absurd ?_ notSecond
      rw [(List.cons.inj rest).2]
      exact List.mem_append_right _ List.mem_cons_self

namespace Formula

theorem isNaN_resolve (text : String) (index : Index) : (resolve text index).isNaN = false := by
  rw [resolve, tryResolve]
  cases Expression.parse text with
  | ok expression => exact Numeric.isNaN_orZero (expression.rawValue index)
  | error problem =>
    exact (by decide : (0 : Float).isNaN = false)

/-- A formula always has a number as its value. -/
theorem isNaN_evaluate (formula : Formula) (index : Index) :
    (formula.evaluate index).isNaN = false := by
  cases formula with
  | plain expression => exact isNaN_resolve expression index
  | switch cases =>
    rw [evaluate, Switch.evaluate]
    cases cases.cases.find? fun choice => choice.matchesSubject cases.subject index with
    | some choice => exact isNaN_resolve choice.result index
    | none => exact isNaN_resolve cases.otherwise index

end Formula

/-! ## Properties of resources -/

namespace Resource

theorem dot_not_mem_name (property : ResourceProperty) : '.' ∉ property.name.toList := by
  cases property <;> decide

/-- A key names one property of the resources of one id. -/
theorem propertyVariable_eq_iff {first second : Resource} {property other : ResourceProperty} :
    first.propertyVariable property = second.propertyVariable other ↔
      first.id = second.id ∧ property = other := by
  constructor
  · intro same
    have named : first.key property.name = second.key other.name := congrArg VariableId.name same
    have characters : (keyStart.toList ++ first.id.toList) ++ '.' :: property.name.toList =
        (keyStart.toList ++ second.id.toList) ++ '.' :: other.name.toList := by
      have split := congrArg String.toList named
      simpa [key, String.toList_append] using split
    rcases append_cons_inj_of_not_mem (dot_not_mem_name property) (dot_not_mem_name other)
      characters with ⟨sameStart, sameName⟩
    refine ⟨String.toList_inj.mp (List.append_cancel_left sameStart), ?_⟩
    have injective : ∀ property other : ResourceProperty,
        property.name = other.name → property = other := by
      intro property other
      cases property <;> cases other <;> decide
    exact injective property other (String.toList_inj.mp sameName)
  · rintro ⟨sameId, rfl⟩
    rw [propertyVariable, propertyVariable, key, key, sameId]

/-- The properties of a resource lie among its keys. -/
theorem owns_propertyVariable (resource : Resource) (property : ResourceProperty) :
    resource.owns (resource.propertyVariable property) = true := by
  have after : Text.stringAfter? (keyStart ++ resource.id)
      (resource.propertyVariable property).name = some ("." ++ property.name) := by
    rw [Text.stringAfter?_eq_some_iff, ← String.append_assoc]
    rfl
  rw [owns, after]
  cases property <;> decide

end Resource

namespace Calculation

/-- Of the resources with one id the first one counts. -/
theorem mem_distinctResources {resources : List Resource} {resource : Resource} :
    resource ∈ distinctResources resources ↔
      resources.find? (·.id == resource.id) = some resource := by
  rw [distinctResources, List.mem_filterMap]
  constructor
  · rintro ⟨id, _, found⟩
    have sameId : resource.id = id := by simpa using List.find?_some found
    rwa [sameId]
  · intro found
    exact ⟨resource.id, mem_firstOccurrences.mpr
      (List.mem_map_of_mem (List.mem_of_find?_eq_some found)), found⟩

theorem nodup_distinctResources (resources : List Resource) :
    ((distinctResources resources).map Resource.id).Nodup := by
  have each : ∀ id ∈ firstOccurrences (resources.map (·.id)),
      (resources.find? (·.id == id)).map Resource.id = some id := by
    intro id member
    rcases List.mem_map.mp (mem_firstOccurrences.mp member) with ⟨resource, known, sameId⟩
    cases found : resources.find? (·.id == id) with
    | none => exact absurd (beq_iff_eq.mpr sameId) (List.find?_eq_none.mp found resource known)
    | some other =>
      have otherId : other.id = id := by simpa using List.find?_some found
      rw [Option.map_some, otherId]
  rw [distinctResources, List.map_filterMap, List.filterMap_congr each, List.filterMap_some]
  exact nodup_firstOccurrences _

/-- The formula of a property that is calculated.  An initial value is
calculated only if nothing is left from play and there is a formula for it. -/
def propertyFormula? (calculation : Calculation) (resource : Resource) :
    ResourceProperty → Option Formula
  | .maximum => some resource.maximum
  | .minimum => some resource.minimum
  | .initial =>
    match calculation.character.resources.find? resource.id with
    | some _ => none
    | none => resource.initial
  | .chargesPerUse => some resource.chargesPerUse
  | .recharge => some resource.recharge

end Calculation

/-- A resource of the sheet shows a property as a statistic.  The initial value
is shown only as the current one. -/
def ResourceStat.Shows (shown : ResourceStat) (stat : Stat) : ResourceProperty → Prop
  | .maximum => shown.maximum = stat
  | .minimum => shown.minimum = stat
  | .initial => shown.current = stat.total
  | .chargesPerUse => shown.chargesPerUse = stat
  | .recharge => shown.recharge = stat

/-! ## Tallies -/

/-- A place where changes to custom variables count. -/
inductive Place where
  | ofVariable (id : VariableId)
  | ofProperty (resource : Resource) (property : ResourceProperty)
  deriving DecidableEq

/-- The variable that changes name to count in a place. -/
def Place.id : Place → VariableId
  | ofVariable id => id
  | ofProperty resource property => resource.propertyVariable property

/-- A statistic in which changes to custom variables count. -/
structure Tally where
  place : Place
  /-- The index that is read for it. -/
  index : Index
  /-- What it is based on beside changes. -/
  bases : List (Source Float)

namespace Tally

variable (calculation : Calculation) (tally : Tally)

/-- What its contributions amount to. -/
def stat : Stat :=
  calculation.resolve
    (tally.bases ++ calculation.sourcesOf tally.index (.customVariable tally.place.id))

/-- The conditions of a change hold when the tally is made, and the value of
its formula is not zero then. -/
def AppliesTo (compiled : CompiledChange) : Prop :=
  calculation.admits tally.index compiled = true ∧
    (compiled.change.formula.evaluate tally.index == 0) = false

instance (compiled : CompiledChange) : Decidable (tally.AppliesTo calculation compiled) :=
  inferInstanceAs (Decidable (_ ∧ _))

/-- A change counts in the tally. -/
def Takes (compiled : CompiledChange) : Prop :=
  compiled.change.target = .customVariable tally.place.id ∧ tally.AppliesTo calculation compiled

instance (compiled : CompiledChange) : Decidable (tally.Takes calculation compiled) :=
  inferInstanceAs (Decidable (_ ∧ _))

theorem contributes_source {compiled : CompiledChange} {index : Index} :
    Amount.contributes (compiled.source index).amount =
      !(compiled.change.formula.evaluate index == 0) := by
  change (!_ && !(compiled.change.formula.evaluate index).isNaN) = _
  rw [Formula.isNaN_evaluate, Bool.not_false, Bool.and_true]
  rfl

/-- The statistic of a tally lists what it is based on and, behind that, the
changes that count in it, each once and in order. -/
theorem sources_stat :
    (tally.stat calculation).sources.map Breakdown.unjudged =
      Breakdown.contributing tally.bases ++
        (calculation.compiled.changes.filter (tally.Takes calculation ·)).map
          (·.source tally.index) := by
  have reduced : (tally.stat calculation).sources.map Breakdown.unjudged =
      (Breakdown.contributing (tally.bases ++
        calculation.sourcesOf tally.index (.customVariable tally.place.id))).map
          Breakdown.unjudged :=
    Breakdown.map_unjudged_judged
  have taken : Breakdown.contributing
        (calculation.sourcesOf tally.index (.customVariable tally.place.id)) =
      (calculation.compiled.changes.filter (tally.Takes calculation ·)).map
        (·.source tally.index) := by
    rw [Calculation.sourcesOf, Calculation.sources, Calculation.contributions,
      Breakdown.contributing, List.filter_map, List.filter_filter, List.map_map]
    refine congrArg₂ List.map rfl (List.filter_congr fun compiled _ => ?_)
    rw [Function.comp_apply, contributes_source, Bool.eq_iff_iff, decide_eq_true_iff]
    simp only [Takes, AppliesTo, Bool.and_eq_true, Bool.not_eq_true', beq_iff_eq]
    exact and_comm.trans and_assoc
  rw [reduced, Breakdown.map_unjudged_contributing, Breakdown.contributing_append, taken]

end Tally

namespace Calculation

/-- The tallies of variables that are evaluated one after the other. -/
def variableTallies (calculation : Calculation) (index : Index) :
    List VariableDefinition → List Tally
  | [] => []
  | definition :: rest =>
    let calculated := calculation.variableStat index definition
    let next := calculated.published.foldl
      (fun index entry => index.publishOrKeep entry.1 entry.2) index
    { place := .ofVariable definition.id
      index
      bases := definition.sources.map fun source =>
        Source.of (source.formula.evaluate index) source.bonusType source.name source.name } ::
      calculation.variableTallies next rest

/-- The tally of a property of a resource. -/
def propertyTally (index : Index) (resource : Resource) (property : ResourceProperty)
    (formula : Formula) : Tally where
  place := .ofProperty resource property
  index := index
  bases := [Source.of (formula.evaluate index) BonusType.base
    (resource.name ++ " " ++ property.name) resource.id]

/-- The tallies of all properties that are calculated. -/
def resourceTallies (calculation : Calculation) (index : Index) : List Tally :=
  (distinctResources calculation.compiled.resources).flatMap fun resource =>
    ResourceProperty.all.filterMap fun property =>
      (calculation.propertyFormula? resource property).map (propertyTally index resource property)

variable {calculation : Calculation} {index : Index}

/-- The statistics of variables are those of their tallies. -/
theorem map_stat_variableTallies (calculation : Calculation) (index : Index)
    (definitions : List VariableDefinition) :
    (calculation.variableTallies index definitions).map
        (fun tally => (tally.place, tally.stat calculation)) =
      (calculation.evaluateInOrder index definitions).map
        fun calculated => (Place.ofVariable calculated.id, calculated.stat) := by
  induction definitions generalizing index with
  | nil => rfl
  | cons definition rest inductionHypothesis =>
    rw [variableTallies, evaluateInOrder, List.map_cons, List.map_cons, inductionHypothesis]
    rfl

theorem map_place_variableTallies (calculation : Calculation) (index : Index)
    (definitions : List VariableDefinition) :
    (calculation.variableTallies index definitions).map Tally.place =
      definitions.map fun definition => .ofVariable definition.id := by
  have places := congrArg (List.map Prod.fst)
    (calculation.map_stat_variableTallies index definitions)
  rw [List.map_map, List.map_map] at places
  have ids := congrArg (List.map Place.ofVariable)
    (calculation.map_id_evaluateInOrder index definitions)
  rw [List.map_map, List.map_map] at ids
  exact places.trans ids

theorem map_id_variableTallies (calculation : Calculation) (index : Index)
    (definitions : List VariableDefinition) :
    (calculation.variableTallies index definitions).map (·.place.id) =
      definitions.map (·.id) := by
  have ids := congrArg (List.map Place.id)
    (calculation.map_place_variableTallies index definitions)
  rwa [List.map_map, List.map_map] at ids

theorem mem_resourceTallies {tally : Tally} :
    tally ∈ calculation.resourceTallies index ↔
      ∃ resource ∈ distinctResources calculation.compiled.resources, ∃ property formula,
        calculation.propertyFormula? resource property = some formula ∧
          tally = propertyTally index resource property formula := by
  have every : ∀ property : ResourceProperty, property ∈ ResourceProperty.all := by
    intro property
    cases property <;> decide
  simp only [resourceTallies, List.mem_flatMap, List.mem_filterMap, Option.map_eq_some_iff]
  constructor
  · rintro ⟨resource, counts, property, _, formula, resolved, rfl⟩
    exact ⟨resource, counts, property, formula, resolved, rfl⟩
  · rintro ⟨resource, counts, property, formula, resolved, rfl⟩
    exact ⟨resource, counts, property, every property, formula, resolved, rfl⟩

/-- No two properties that are calculated have one key. -/
theorem nodup_id_resourceTallies (calculation : Calculation) (index : Index) :
    ((calculation.resourceTallies index).map (·.place.id)).Nodup := by
  have keys : ∀ resource : Resource,
      (ResourceProperty.all.filterMap fun property =>
          (calculation.propertyFormula? resource property).map
            (propertyTally index resource property)).map (·.place.id) =
        ResourceProperty.all.filterMap fun property =>
          (calculation.propertyFormula? resource property).map fun _ =>
            resource.propertyVariable property := by
    intro resource
    simp only [List.map_filterMap, Option.map_map]
    rfl
  have named : ∀ {resource : Resource} {property : ResourceProperty} {id : VariableId},
      id ∈ (calculation.propertyFormula? resource property).map
          (fun _ => resource.propertyVariable property) →
        id = resource.propertyVariable property := by
    intro resource property id resolved
    rcases Option.map_eq_some_iff.mp resolved with ⟨_, _, rfl⟩
    rfl
  rw [resourceTallies, List.map_flatMap]
  simp only [keys]
  refine List.nodup_flatMap.mpr ⟨fun resource _ => ?_, ?_⟩
  · refine List.Nodup.filterMap (fun property other id first second => ?_) (by decide)
    exact (Resource.propertyVariable_eq_iff.mp ((named first).symm.trans (named second))).2
  · have distinct := nodup_distinctResources calculation.compiled.resources
    rw [List.nodup_iff_pairwise_ne, List.pairwise_map] at distinct
    refine distinct.imp fun {resource other} different id first second => ?_
    rcases List.mem_filterMap.mp first with ⟨_, _, ofResource⟩
    rcases List.mem_filterMap.mp second with ⟨_, _, ofOther⟩
    exact different
      (Resource.propertyVariable_eq_iff.mp ((named ofResource).symm.trans (named ofOther))).1

/-- A resource shows the properties that are calculated as their tallies. -/
theorem shows_resourceStat {resource : Resource} {property : ResourceProperty} {formula : Formula}
    (resolved : calculation.propertyFormula? resource property = some formula) :
    (calculation.resourceStat index resource).Shows
      ((propertyTally index resource property formula).stat calculation) property := by
  cases property with
  | initial =>
    rw [propertyFormula?] at resolved
    change (calculation.resourceStat index resource).current = _
    rw [resourceStat]
    dsimp only
    cases left : calculation.character.resources.find? resource.id with
    | some state =>
      rw [left] at resolved
      cases resolved
    | none =>
      rw [left] at resolved
      dsimp only at resolved
      rw [resolved]
      rfl
  | _ =>
    cases resolved
    rfl

/-- The sheet has the resources that count, each under its id. -/
theorem find?_resources {id : String} {shown : ResourceStat} :
    (calculation.resources index).value.find? id = some shown ↔
      ∃ resource ∈ distinctResources calculation.compiled.resources,
        resource.id = id ∧ shown = calculation.resourceStat index resource := by
  constructor
  · intro found
    rcases List.mem_map.mp (SortedMap.mem_of_find?_ofList found) with ⟨_, listed, same⟩
    rcases List.mem_map.mp listed with ⟨resource, counts, rfl⟩
    cases same
    exact ⟨resource, counts, rfl, rfl⟩
  · rintro ⟨resource, counts, rfl, rfl⟩
    refine SortedMap.find?_ofList_of_agree (List.mem_map.mpr
      ⟨calculation.resourceStat index resource, List.mem_map_of_mem counts, rfl⟩) ?_
    intro other entry
    rcases List.mem_map.mp entry with ⟨_, listed, same⟩
    rcases List.mem_map.mp listed with ⟨rival, rivalCounts, rfl⟩
    have sameId : rival.id = resource.id := congrArg Prod.fst same
    have sameResource := List.inj_on_of_nodup_map
      (nodup_distinctResources calculation.compiled.resources) rivalCounts counts sameId
    exact (congrArg Prod.snd same).symm.trans
      (congrArg (calculation.resourceStat index) sameResource)

end Calculation
end CharacterSheet
