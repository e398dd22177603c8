import CharacterSheet.Proofs.Sheet.Turn
import CharacterSheet.Proofs.Statistic.Routing

/-!
# Where the sheet counts changes to custom variables

A change to a custom variable counts where its name leads: in the variable of
that name, or in a property of a resource.  Below a resource no variables are
declared for changes alone, so that a change to a property that is calculated
counts there only.  A definition declares its variable everywhere, however, and
if the variable is such a property as well, a change to it counts twice.  An
initial value is not calculated where it makes no difference, and then a change
to it counts nowhere.
-/

namespace CharacterSheet

namespace Calculation

variable (calculation : Calculation) (id : VariableId)

/-- A variable is declared by a definition. -/
def Defines : Prop :=
  id ∈ (calculation.compiled.definitions calculation.character).map (·.id)

/-- A variable lies among the keys of a resource. -/
def Owned : Prop :=
  ∃ resource ∈ calculation.compiled.resources, resource.owns id = true

/-- A property of a resource is calculated. -/
def Resolves (resource : Resource) (property : ResourceProperty) : Prop :=
  resource ∈ distinctResources calculation.compiled.resources ∧
    (calculation.propertyFormula? resource property).isSome = true

/-- A variable is a property of a resource that is calculated. -/
def ResolvesVariable : Prop :=
  ∃ resource property, calculation.Resolves resource property ∧
    id = resource.propertyVariable property

/-- Some places are those where changes to a variable have to count.  Nothing
is said about a variable among the keys of a resource that is neither defined
nor a property. -/
structure Routes (places : List Place) : Prop where
  unowned : ¬ calculation.Owned id → places = [.ofVariable id]
  defined : calculation.Defines id → ¬ calculation.ResolvesVariable id →
    places = [.ofVariable id]
  resolved : ∀ resource property, calculation.Resolves resource property →
    id = resource.propertyVariable property → ¬ calculation.Defines id →
      places = [.ofProperty resource property]
  both : ∀ resource property, calculation.Resolves resource property →
    id = resource.propertyVariable property → calculation.Defines id →
      places = [.ofVariable id, .ofProperty resource property]
  unresolved : ∀ resource ∈ calculation.compiled.resources,
    id = resource.propertyVariable .initial → ¬ calculation.ResolvesVariable id →
      ¬ calculation.Defines id → places = []

variable {calculation : Calculation} {id : VariableId} {index : Index}

theorem owned_of_resolvesVariable (resolved : calculation.ResolvesVariable id) :
    calculation.Owned id := by
  rcases resolved with ⟨resource, property, ⟨counts, _⟩, rfl⟩
  exact ⟨resource, List.mem_of_find?_eq_some (mem_distinctResources.mp counts),
    resource.owns_propertyVariable property⟩

/-- A variable that a change affects is declared if it is defined or does not
belong to a resource. -/
theorem declared_iff_of_targeted {compiled : CompiledChange}
    (member : compiled ∈ calculation.compiled.changes)
    (targeted : compiled.change.target = .customVariable id) :
    id ∈ calculation.declaredIds ↔ calculation.Defines id ∨ ¬ calculation.Owned id := by
  have listed : id ∈ calculation.compiled.changes.filterMap fun compiled =>
      variableTarget? compiled.change.target :=
    List.mem_filterMap.mpr ⟨compiled, member, by rw [targeted]; rfl⟩
  rw [mem_declaredIds_iff, affectedVariables, List.mem_filter]
  simp only [listed, true_and, Defines, Owned, Bool.not_eq_true', List.any_eq_false, not_exists,
    not_and]

/-- The tallies of declared variables for one variable. -/
theorem filter_variableTallies :
    ((calculation.variableTallies index calculation.sortedDeclarations).filter
        (·.place.id == id)).map Tally.place =
      if id ∈ calculation.declaredIds then [.ofVariable id] else [] := by
  have ids := calculation.map_id_variableTallies index calculation.sortedDeclarations
  have declaredIds : id ∈ calculation.sortedDeclarations.map (·.id) ↔
      id ∈ calculation.declaredIds :=
    ((perm_evaluated calculation).map _).mem_iff
  split
  · rename_i declared
    rw [← declaredIds, ← ids] at declared
    rcases List.mem_map.mp declared with ⟨tally, member, rfl⟩
    have single := filter_key_eq_singleton (fun tally : Tally => tally.place.id)
      (ids ▸ calculation.nodup_id_sortedDeclarations) member
    have place : tally.place = .ofVariable tally.place.id := by
      have known := List.mem_map_of_mem (f := Tally.place) member
      rw [map_place_variableTallies] at known
      rcases List.mem_map.mp known with ⟨definition, _, same⟩
      rw [← same]
      rfl
    exact (congrArg (List.map Tally.place) single).trans (congrArg (fun place => [place]) place)
  · rename_i undeclared
    refine (congrArg (List.map Tally.place)
      (List.filter_eq_nil_iff.mpr fun tally member named => undeclared ?_))
    have listed := List.mem_map_of_mem (f := fun tally : Tally => tally.place.id) member
    rw [ids, eq_of_beq named] at listed
    exact declaredIds.mp listed

/-- The tallies of properties for one variable. -/
theorem filter_resourceTallies {resource : Resource} {property : ResourceProperty}
    (resolved : calculation.Resolves resource property) :
    ((calculation.resourceTallies index).filter
        (·.place.id == resource.propertyVariable property)).map Tally.place =
      [.ofProperty resource property] := by
  rcases Option.isSome_iff_exists.mp resolved.2 with ⟨formula, found⟩
  have member : propertyTally index resource property formula ∈
      calculation.resourceTallies index :=
    mem_resourceTallies.mpr ⟨resource, resolved.1, property, formula, found, rfl⟩
  have single := filter_key_eq_singleton (fun tally : Tally => tally.place.id)
    (calculation.nodup_id_resourceTallies index) member
  exact congrArg (List.map Tally.place) single

theorem filter_resourceTallies_of_not (unresolved : ¬ calculation.ResolvesVariable id) :
    (calculation.resourceTallies index).filter (·.place.id == id) = [] := by
  refine List.filter_eq_nil_iff.mpr fun tally member named => unresolved ?_
  rcases mem_resourceTallies.mp member with ⟨resource, counts, property, formula, found, rfl⟩
  exact ⟨resource, property, ⟨counts, found ▸ rfl⟩, (eq_of_beq named).symm⟩

/-- The tallies for a variable that a change affects are where the change has to
count. -/
theorem routes_tallies {compiled : CompiledChange}
    (member : compiled ∈ calculation.compiled.changes)
    (targeted : compiled.change.target = .customVariable id) (first second : Index) :
    calculation.Routes id
      (((calculation.variableTallies first calculation.sortedDeclarations ++
        calculation.resourceTallies second).filter (·.place.id == id)).map Tally.place) := by
  have declared := declared_iff_of_targeted member targeted
  rw [List.filter_append, List.map_append, filter_variableTallies]
  constructor
  · intro unowned
    have unresolved := unowned ∘ owned_of_resolvesVariable
    rw [filter_resourceTallies_of_not unresolved, if_pos (declared.mpr (Or.inr unowned))]
    rfl
  · intro defined unresolved
    rw [filter_resourceTallies_of_not unresolved, if_pos (declared.mpr (Or.inl defined))]
    rfl
  · rintro resource property resolved rfl undefined
    have owned := owned_of_resolvesVariable ⟨resource, property, resolved, rfl⟩
    have undeclared := fun listed => (declared.mp listed).elim undefined (· owned)
    rw [filter_resourceTallies resolved, if_neg undeclared]
    rfl
  · rintro resource property resolved rfl defined
    rw [filter_resourceTallies resolved, if_pos (declared.mpr (Or.inl defined))]
    rfl
  · rintro resource known rfl unresolved undefined
    have owned : calculation.Owned (resource.propertyVariable .initial) :=
      ⟨resource, known, resource.owns_propertyVariable .initial⟩
    have undeclared := fun listed => (declared.mp listed).elim undefined (· owned)
    rw [filter_resourceTallies_of_not unresolved, if_neg undeclared]
    rfl

end Calculation

namespace Sheet

/-- A place of the sheet shows a statistic. -/
def ShowsAt (sheet : Sheet) (stat : Stat) : Place → Prop
  | .ofVariable id =>
    ∃ calculated ∈ sheet.statistics.customVariables, calculated.id = id ∧ calculated.stat = stat
  | .ofProperty resource property =>
    ∃ shown, sheet.statistics.resources.find? resource.id = some shown ∧
      shown.definition = resource ∧ shown.Shows stat property

/-- Tallies make up a sheet: they are its variables and those properties of its
resources that are calculated, each once. -/
structure MadeOf (sheet : Sheet) (calculation : Calculation) (tallies : List Tally) : Prop where
  distinct : (tallies.map Tally.place).Nodup
  shown : ∀ tally ∈ tallies, sheet.ShowsAt (tally.stat calculation) tally.place
  custom : ∀ calculated ∈ sheet.statistics.customVariables,
    .ofVariable calculated.id ∈ tallies.map Tally.place
  properties : ∀ id shown, sheet.statistics.resources.find? id = some shown → ∀ property,
    .ofProperty shown.definition property ∈ tallies.map Tally.place ↔
      (calculation.propertyFormula? shown.definition property).isSome = true

/-- The tallies of the two phases in which changes to custom variables count. -/
def tallies (character : Character) (config : Config) : List Tally :=
  (calculation character config).variableTallies
      (atTurn character config .customVariables).index
      (calculation character config).sortedDeclarations ++
    (calculation character config).resourceTallies (atTurn character config .resources).index

variable {character : Character} {config : Config}

/-- Every tally has a place of its own, because a variable is declared once and
no two properties have one key. -/
theorem nodup_place_tallies : ((tallies character config).map Tally.place).Nodup := by
  rw [tallies, List.map_append, Calculation.map_place_variableTallies]
  refine List.nodup_append.mpr ⟨List.Nodup.of_map Place.id ?_, List.Nodup.of_map Place.id ?_, ?_⟩
  · rw [List.map_map]
    exact Calculation.nodup_id_sortedDeclarations _
  · rw [List.map_map]
    exact Calculation.nodup_id_resourceTallies _ _
  · intro place custom other property same
    rcases List.mem_map.mp custom with ⟨definition, _, rfl⟩
    rcases List.mem_map.mp property with ⟨tally, member, rfl⟩
    rcases Calculation.mem_resourceTallies.mp member with ⟨_, _, _, _, _, rfl⟩
    cases same

section Valid

variable (valid : config.validate = .ok ())

include valid

theorem showsAt_of_mem_tallies {tally : Tally} (member : tally ∈ tallies character config) :
    (calculate character config).ShowsAt (tally.stat (calculation character config))
      tally.place := by
  rcases List.mem_append.mp member with custom | property
  · have shown := List.mem_map_of_mem
      (f := fun tally : Tally => (tally.place, tally.stat (calculation character config))) custom
    rw [Calculation.map_stat_variableTallies, ← customVariables_calculate valid] at shown
    rcases List.mem_map.mp shown with ⟨calculated, listed, same⟩
    have samePlace : .ofVariable calculated.id = tally.place := congrArg Prod.fst same
    rw [← samePlace]
    exact ⟨calculated, listed, rfl, congrArg Prod.snd same⟩
  · rcases Calculation.mem_resourceTallies.mp property with
      ⟨resource, counts, property, formula, resolved, rfl⟩
    refine ⟨_, ?_, rfl, Calculation.shows_resourceStat resolved⟩
    rw [resources_calculate valid]
    exact Calculation.find?_resources.mpr ⟨resource, counts, rfl, rfl⟩

/-- A sheet is made of the tallies of its two phases. -/
theorem madeOf_tallies :
    (calculate character config).MadeOf (calculation character config)
      (tallies character config) := by
  refine ⟨nodup_place_tallies, fun _ => showsAt_of_mem_tallies valid, ?_, ?_⟩
  · intro calculated listed
    rw [customVariables_calculate valid] at listed
    have known := List.mem_map_of_mem (f := VariableStat.id) listed
    rw [Calculation.map_id_evaluateInOrder] at known
    rcases List.mem_map.mp known with ⟨definition, member, same⟩
    rw [tallies, List.map_append, Calculation.map_place_variableTallies]
    exact List.mem_append_left _ (List.mem_map.mpr ⟨definition, member, congrArg _ same⟩)
  · intro id shown found property
    rw [resources_calculate valid] at found
    rcases Calculation.find?_resources.mp found with ⟨resource, counts, rfl, rfl⟩
    constructor
    · intro listed
      rcases List.mem_map.mp listed with ⟨tally, member, same⟩
      rcases List.mem_append.mp member with custom | property
      · have known := List.mem_map_of_mem (f := Tally.place) custom
        rw [Calculation.map_place_variableTallies, same] at known
        rcases List.mem_map.mp known with ⟨_, _, different⟩
        cases different
      · rcases Calculation.mem_resourceTallies.mp property with
          ⟨_, _, _, formula, resolved, rfl⟩
        cases same
        exact resolved ▸ rfl
    · intro resolved
      rcases Option.isSome_iff_exists.mp resolved with ⟨formula, found⟩
      exact List.mem_map.mpr ⟨_, List.mem_append_right _ (Calculation.mem_resourceTallies.mpr
        ⟨resource, counts, property, formula, found, rfl⟩), rfl⟩

end Valid

/-- The statistics in which changes to custom variables count are the variables
of a sheet and the calculated properties of its resources.  Each lists the
changes that count in it, once each and in order.  A change that applies
wherever it is tried counts in the places that its variable routes to. -/
theorem changes_counted (character : Character) (config : Config)
    (valid : config.validate = .ok ()) :
    let calculation := calculation character config
    let tallies := tallies character config
    (calculate character config).MadeOf calculation tallies ∧
      (∀ tally ∈ tallies, (tally.stat calculation).sources.map Breakdown.unjudged =
        Breakdown.contributing tally.bases ++
          (calculation.compiled.changes.filter (tally.Takes calculation ·)).map
            (·.source tally.index)) ∧
      ∀ compiled ∈ calculation.compiled.changes, ∀ id,
        compiled.change.target = .customVariable id →
          (∀ tally ∈ tallies, tally.place.id = id → tally.AppliesTo calculation compiled) →
            calculation.Routes id
              ((tallies.filter (·.Takes calculation compiled)).map Tally.place) := by
  intro calculation tallies
  refine ⟨madeOf_tallies valid, fun tally _ => tally.sources_stat calculation, ?_⟩
  intro compiled member id targeted applies
  have taken : tallies.filter (·.Takes calculation compiled) =
      tallies.filter (·.place.id == id) := by
    refine List.filter_congr fun tally listed => ?_
    rw [Bool.eq_iff_iff, decide_eq_true_iff, beq_iff_eq, Tally.Takes, targeted,
      ChangeTarget.customVariable.injEq]
    exact ⟨fun takes => takes.1.symm, fun named => ⟨named.symm, applies tally listed named⟩⟩
  rw [taken]
  exact Calculation.routes_tallies member targeted _ _

/-- A pool of points that starts with one. -/
def kiPool : Resource :=
  { Resource.of "ki" "Ki" "3" with initial := some (.plain "1") }

/-- A character with a change to the most points of a pool. -/
def monk : Character :=
  { Character.of "sample" with
    changes := [Change.of (.customVariable (kiPool.propertyVariable .maximum)) "2"
      BonusType.untyped]
    special := [.resource kiPool] }

theorem changes_counted_monk :
    Config.default.validate = .ok () ∧
      ∃ compiled ∈ (calculation monk Config.default).compiled.changes,
        compiled.change.target = .customVariable (kiPool.propertyVariable .maximum) ∧
          (∀ tally ∈ tallies monk Config.default,
            tally.place.id = kiPool.propertyVariable .maximum →
              tally.AppliesTo (calculation monk Config.default) compiled) ∧
          ((tallies monk Config.default).filter
              (·.Takes (calculation monk Config.default) compiled)).map Tally.place =
            [.ofProperty kiPool .maximum] := by
  have valid : Config.default.validate = .ok () := rfl
  have member : ⟨Change.of (.customVariable (kiPool.propertyVariable .maximum)) "2"
      BonusType.untyped, monk.ownContent.origin⟩ ∈
        (calculation monk Config.default).compiled.changes :=
    List.mem_cons_self
  have applies : ∀ tally ∈ tallies monk Config.default,
      tally.place.id = kiPool.propertyVariable .maximum →
        tally.AppliesTo (calculation monk Config.default)
          ⟨Change.of (.customVariable (kiPool.propertyVariable .maximum)) "2" BonusType.untyped,
            monk.ownContent.origin⟩ := by
    decide +kernel
  have resolves : (calculation monk Config.default).Resolves kiPool .maximum := by
    unfold Calculation.Resolves
    decide +kernel
  have undefined : ¬ (calculation monk Config.default).Defines
      (kiPool.propertyVariable .maximum) := by
    unfold Calculation.Defines
    decide +kernel
  have routes := (changes_counted monk Config.default valid).2.2 _ member _ rfl applies
  exact ⟨valid, _, member, rfl, applies, routes.resolved kiPool .maximum resolves rfl undefined⟩

/-- A character with a variable that is also the most points of a pool, of which
one point is left, and with changes to that variable and to the points at
first. -/
def spentMonk : Character :=
  { Character.of "sample" with
    changes :=
      [Change.of (.customVariable (kiPool.propertyVariable .maximum)) "2" BonusType.untyped,
        Change.of (.customVariable (kiPool.propertyVariable .initial)) "2" BonusType.untyped]
    special :=
      [.customVariable ⟨kiPool.propertyVariable .maximum, "", []⟩, .resource kiPool]
    resources := SortedMap.ofList [("ki", ⟨1⟩)] }

/-- The one change counts twice, and the other one nowhere. -/
theorem not_counted_once_spentMonk :
    Config.default.validate = .ok () ∧
      (∃ compiled ∈ (calculation spentMonk Config.default).compiled.changes,
        ((tallies spentMonk Config.default).filter
            (·.Takes (calculation spentMonk Config.default) compiled)).map Tally.place =
          [.ofVariable (kiPool.propertyVariable .maximum), .ofProperty kiPool .maximum]) ∧
      ∃ compiled ∈ (calculation spentMonk Config.default).compiled.changes,
        compiled.change.target = .customVariable (kiPool.propertyVariable .initial) ∧
        (∀ index, (calculation spentMonk Config.default).admits index compiled = true ∧
          (compiled.change.formula.evaluate index == 0) = false) ∧
        ∀ tally ∈ tallies spentMonk Config.default,
          ¬ tally.Takes (calculation spentMonk Config.default) compiled := by
  have toInitial : ⟨Change.of (.customVariable (kiPool.propertyVariable .initial)) "2"
      BonusType.untyped, spentMonk.ownContent.origin⟩ ∈
        (calculation spentMonk Config.default).compiled.changes :=
    List.mem_cons_of_mem _ List.mem_cons_self
  have two : ∀ index, ((Formula.plain "2").evaluate index == 0) = false := by
    intro index
    rw [Formula.evaluate_of_keyFree (by decide +kernel) index Index.empty]
    decide +kernel
  refine ⟨rfl, by decide +kernel, _, toInitial, rfl, fun index => ⟨rfl, two index⟩, ?_⟩
  decide +kernel

end Sheet
end CharacterSheet
