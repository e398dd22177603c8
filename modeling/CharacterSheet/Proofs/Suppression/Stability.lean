import CharacterSheet.Proofs.Phase.Alike
import CharacterSheet.Proofs.Sheet.Publishing
import CharacterSheet.Proofs.Suppression.Transitivity

/-!
# What is left suppresses nothing more

An entity that is left was not suppressed when its turn came either, so it has
acted, and all of its targets are suppressed.  Among the entities that are left
it therefore has no target, for what an entity claims from some of the others
it also claims from all of them.  So none of them does anything when those that
are left are judged again.

A sheet is calculated from the entities that are left, and nothing else on it
but the record of what was suppressed looks at those that are not.
-/

namespace CharacterSheet

namespace Suppression

variable {entities : List Entity} {index : Index} {scope : Scope}

/-- An entity claims from all what it claims from some. -/
theorem claims_subset {some all : List Entity} (included : some ⊆ all) (actor : Entity) :
    claims some index scope actor ⊆ claims all index scope actor := by
  have named : ∀ rule, namedTargets rule actor.id some ⊆ namedTargets rule actor.id all := by
    intro rule target member
    rcases List.mem_filter.mp member with ⟨listed, allowed⟩
    rw [Bool.and_eq_true, List.any_eq_true] at allowed
    rcases allowed with ⟨other, entity, known, same⟩
    refine List.mem_filter.mpr ⟨listed, ?_⟩
    rw [Bool.and_eq_true, List.any_eq_true]
    exact ⟨other, entity, included known, same⟩
  have matched : ∀ rule,
      matchedTargets rule actor.id some index ⊆ matchedTargets rule actor.id all index := by
    intro rule target member
    unfold matchedTargets at member ⊢
    split at member
    · cases member
    · rcases List.mem_filter.mp member with ⟨found, other⟩
      rcases List.mem_map.mp found with ⟨entity, fits, rfl⟩
      rcases List.mem_filter.mp fits with ⟨known, admitted⟩
      exact List.mem_filter.mpr
        ⟨List.mem_map_of_mem (List.mem_filter.mpr ⟨included known, admitted⟩), other⟩
  intro entry member
  rcases List.mem_flatMap.mp member with ⟨rule, covered, claimed⟩
  refine List.mem_flatMap.mpr ⟨rule, covered, ?_⟩
  rcases List.mem_append.mp claimed with byId | byFilter
  · exact List.mem_append_left _ (List.map_subset _ (named rule) byId)
  · exact List.mem_append_right _ (List.map_subset _ (matched rule) byFilter)

/-- Every target of an entity that is left is suppressed. -/
theorem contains_of_mem_remaining {actor : Entity} {target : String}
    (left : actor ∈ remaining entities (calculate entities index scope))
    (member : target ∈ targets entities index scope actor) :
    (calculate entities index scope).contains target = true := by
  rcases List.mem_filter.mp left with ⟨listed, free⟩
  rw [Bool.not_eq_true'] at free
  rcases List.append_of_mem listed with ⟨before, after, split⟩
  have final : calculate entities index scope =
      outcomeAfter entities index scope (before ++ [actor] ++ after) := by
    rw [List.append_assoc, List.singleton_append, ← split, calculate_eq_outcomeAfter]
  -- Had the entity been suppressed by its turn, it still would be.
  have acts : (outcomeAfter entities index scope before).contains actor.id = false := by
    apply Bool.eq_false_iff.mpr
    intro suppressed
    rcases Option.isSome_iff_exists.mp suppressed with ⟨record, recorded⟩
    have kept := find?_outcomeAfter_append entities index scope recorded ([actor] ++ after)
    rw [← List.append_assoc, ← final] at kept
    rw [SortedMap.contains, kept] at free
    cases free
  rcases Option.isSome_iff_exists.mp (contains_of_mem_targets acts member) with ⟨record, recorded⟩
  rw [final, SortedMap.contains, find?_outcomeAfter_append entities index scope recorded after]
  rfl

/-- An entity that is left has nothing to claim from the others that are. -/
theorem claims_remaining {actor : Entity}
    (left : actor ∈ remaining entities (calculate entities index scope)) :
    claims (remaining entities (calculate entities index scope)) index scope actor = [] := by
  apply List.eq_nil_iff_forall_not_mem.mpr
  rintro ⟨target, record⟩ claimed
  rcases List.mem_map.mp (claims_spec claimed).2.2 with ⟨other, spared, rfl⟩
  have member : other.id ∈ targets entities index scope actor :=
    List.mem_map_of_mem (claims_subset List.filter_sublist.subset actor claimed)
  have suppressed := contains_of_mem_remaining left member
  have free := (List.mem_filter.mp spared).2
  rw [suppressed] at free
  cases free

/-- Of the entities that are left, none is suppressed by the others. -/
theorem calculate_remaining (entities : List Entity) (index : Index) (scope : Scope) :
    calculate (remaining entities (calculate entities index scope)) index scope =
      SortedMap.empty := by
  refine List.foldlRecOn (motive := (· = SortedMap.empty)) _ _ rfl ?_
  rintro _ rfl actor left
  rw [act, claims_remaining left]
  rfl

end Suppression

namespace Calculation

/-- No phase looks at the entities of a character beside those applied. -/
theorem alike_withEntities (calculation : Calculation) (entities : List Entity) :
    Alike { calculation with character := { calculation.character with entities } }
      calculation where
  character := calculation.character.alike_with calculation.character.changes entities
  table := rfl
  special := rfl
  sources := rfl
  contextualSources := rfl
  mandatory := rfl
  offered := rfl
  baseSpeeds := rfl
  evaluationOrder := rfl
  sortedDeclarations := rfl

end Calculation

namespace Sheet

/-- The character without the entities that its sheet shows as suppressed. -/
def withoutSuppressed (character : Character) (config : Config) : Character :=
  { character with
    entities := Suppression.remaining character.entities (calculate character config).suppressed }

variable (character : Character) (config : Config)

/-- Among the entities that are left none is suppressed. -/
theorem suppressed_withoutSuppressed :
    (calculate (withoutSuppressed character config) config).suppressed = SortedMap.empty :=
  Suppression.calculate_remaining character.entities (start character config).index .applied

/-- The same entities are applied without those that are suppressed. -/
theorem calculation_withoutSuppressed :
    calculation (withoutSuppressed character config) config =
      { calculation character config with character := withoutSuppressed character config } := by
  have unfolded : ∀ other : Character, calculation other config =
      let applied := Suppression.remaining other.entities (calculate other config).suppressed
      ⟨other, Compilation.ofCharacter other applied, config.bonusTypes, applied⟩ :=
    fun _ => rfl
  have applied : Suppression.remaining (withoutSuppressed character config).entities
      SortedMap.empty = (withoutSuppressed character config).entities :=
    List.filter_true _
  rw [unfolded, suppressed_withoutSuppressed, applied]
  rfl

/-- Suppression is stable: the entities that it leaves suppress nothing when
they are judged again.  So a sheet stays the same without the entities that it
shows as suppressed, but for showing none. -/
theorem suppression_stable :
    (∀ entities index scope,
      Suppression.calculate
        (Suppression.remaining entities (Suppression.calculate entities index scope)) index scope =
          SortedMap.empty) ∧
    ∀ character config, calculate (withoutSuppressed character config) config =
      { calculate character config with suppressed := SortedMap.empty } := by
  refine ⟨Suppression.calculate_remaining, fun character config => ?_⟩
  have noneSuppressed : Suppression.calculate (withoutSuppressed character config).entities
      (start (withoutSuppressed character config) config).index .applied = SortedMap.empty :=
    suppressed_withoutSuppressed character config
  have sameRun : Progress.run (calculation (withoutSuppressed character config) config) =
      Progress.run (calculation character config) := by
    rw [calculation_withoutSuppressed]
    exact Progress.run_congr (Calculation.alike_withEntities (calculation character config)
      (withoutSuppressed character config).entities)
  have sameStart : beforePhases (withoutSuppressed character config) config =
      beforePhases character config := by
    rw [beforePhases, calculation_withoutSuppressed]
    rfl
  rw [calculate_eq, calculate_eq, noneSuppressed, Progress.runAll, Progress.runAll, sameRun,
    sameStart, calculation_withoutSuppressed]

end Sheet

end CharacterSheet
