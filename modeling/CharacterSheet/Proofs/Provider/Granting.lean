import CharacterSheet.FirstOccurrences
import CharacterSheet.Proofs.Filter.Verdict
import CharacterSheet.Proofs.SortedMap
import CharacterSheet.Provider.Resolution
import Mathlib.Data.List.Forall2
import Mathlib.Data.List.Induction

/-!
# What is granted

A grant brings together what its ids lead to and what its filter matches.  The
two can overlap, an id can be listed twice, and what is looked up under one id
can have another.  Still every id is granted once, by the first entity that has
it: `distinctById_eq_withoutRepeats` says which entities these are, and
`map_id_distinctById` what ids they have.
-/

namespace CharacterSheet

/-- What a partial function finds belongs, one by one, to the items where it
finds something. -/
theorem forall₂_filterMap {α β : Type} (find : α → Option β) (items : List α) :
    List.Forall₂ (fun item found => find item = some found)
      (items.filter fun item => (find item).isSome) (items.filterMap find) := by
  induction items with
  | nil => exact .nil
  | cons item rest inductionHypothesis =>
    cases found : find item with
    | none => simpa [found] using inductionHypothesis
    | some value => simpa [found] using inductionHypothesis

namespace PropertyCondition

/-- A condition has a query that cannot be parsed, which is a problem even if
the condition goes by a field path. -/
def Misreads (condition : PropertyCondition) (problem : SheetError) : Prop :=
  ∃ query fault, condition.query = some query ∧ Query.Expression.parse query = .error fault ∧
    problem = .invalidQuery query fault.message

/-- The problem with the query of a condition. -/
def misreading? (condition : PropertyCondition) : Option SheetError :=
  condition.query.bind fun query =>
    match Query.Expression.parse query with
    | .ok _ => none
    | .error fault => some (.invalidQuery query fault.message)

theorem misreading?_eq_some_iff {condition : PropertyCondition} {problem : SheetError} :
    condition.misreading? = some problem ↔ condition.Misreads problem := by
  rw [misreading?, Option.bind_eq_some_iff]
  constructor
  · rintro ⟨query, known, reported⟩
    cases fails : Query.Expression.parse query with
    | ok expression =>
      rw [fails] at reported
      cases reported
    | error fault =>
      rw [fails] at reported
      cases reported
      exact ⟨query, fault, known, fails, rfl⟩
  · rintro ⟨query, fault, known, fails, rfl⟩
    refine ⟨query, known, ?_⟩
    rw [fails]

theorem isSome_misreading?_iff {condition : PropertyCondition} :
    condition.misreading?.isSome = true ↔ ∃ problem, condition.Misreads problem := by
  simp only [Option.isSome_iff_exists, misreading?_eq_some_iff]

instance (condition : PropertyCondition) : Decidable (∃ problem, condition.Misreads problem) :=
  decidable_of_iff _ isSome_misreading?_iff

end PropertyCondition

namespace Filter

instance (filter : Filter) (index : Index) (entity : Entity) :
    Decidable (filter.Matches index entity) :=
  decidable_of_iff _ admits_view_iff

/-- A filter reports each of its conditions that misreads, in their order. -/
theorem forall₂_invalidQueries (filter : Filter) :
    List.Forall₂ PropertyCondition.Misreads
      (filter.conditions.filter fun condition => ∃ problem, condition.Misreads problem)
      filter.invalidQueries := by
  have misreading : ∀ condition : PropertyCondition,
      decide (∃ problem, condition.Misreads problem) = condition.misreading?.isSome := by
    intro condition
    rw [Bool.eq_iff_iff, decide_eq_true_eq, PropertyCondition.isSome_misreading?_iff]
  simp only [misreading]
  exact (forall₂_filterMap PropertyCondition.misreading? filter.conditions).imp
    fun _ _ => PropertyCondition.misreading?_eq_some_iff.mp

end Filter

namespace Provider

/-! ## Each id once -/

/-- The entities of a list, less those whose id an earlier one has. -/
def withoutRepeats (entities : List Entity) : List Entity :=
  (entities.zipIdx.filter fun place =>
    (entities.take place.2).all fun earlier => earlier.id != place.1.id).map Prod.fst

theorem withoutRepeats_concat (entities : List Entity) (entity : Entity) :
    withoutRepeats (entities ++ [entity]) =
      if entity.id ∈ entities.map (·.id) then withoutRepeats entities
      else withoutRepeats entities ++ [entity] := by
  have before : entities.zipIdx.filter (fun place =>
        ((entities ++ [entity]).take place.2).all fun earlier => earlier.id != place.1.id) =
      entities.zipIdx.filter fun place =>
        (entities.take place.2).all fun earlier => earlier.id != place.1.id := by
    refine List.filter_congr fun place listed => ?_
    rw [List.take_append_of_le_length (Nat.le_of_lt (List.snd_lt_of_mem_zipIdx listed))]
  have atEnd : (entities.all fun earlier => earlier.id != entity.id) =
      !decide (entity.id ∈ entities.map (·.id)) := by
    rw [Bool.eq_iff_iff]
    simp
  rw [withoutRepeats, withoutRepeats, List.zipIdx_append, List.filter_append, before,
    List.zipIdx_singleton, List.map_append, Nat.zero_add, List.filter_singleton, List.take_left,
    atEnd]
  by_cases known : entity.id ∈ entities.map (·.id) <;> simp [known]

/-- The ids of what is gathered are the ids there are, in the order in which
they first come up. -/
theorem map_id_distinctById (entities : List Entity) :
    (distinctById entities).map (·.id) = firstOccurrences (entities.map (·.id)) := by
  rw [firstOccurrences, List.foldl_map, distinctById]
  refine (List.foldl_hom (List.map fun entity : Entity => entity.id) fun seen entity => ?_).symm
  have known : (seen.any fun other => other.id == entity.id) =
      (seen.map (·.id)).contains entity.id := by
    rw [Bool.eq_iff_iff, any_key_iff Entity.id, List.contains_iff_mem]
  rw [appendNew, known]
  split
  · rfl
  · rw [List.map_append]
    rfl

theorem distinctById_concat (entities : List Entity) (entity : Entity) :
    distinctById (entities ++ [entity]) =
      if entity.id ∈ entities.map (·.id) then distinctById entities
      else distinctById entities ++ [entity] := by
  have known : ((distinctById entities).any fun other => other.id == entity.id) =
      decide (entity.id ∈ entities.map (·.id)) := by
    rw [Bool.eq_iff_iff, decide_eq_true_eq, ← mem_firstOccurrences, ← map_id_distinctById,
      any_key_iff Entity.id]
  have step : distinctById (entities ++ [entity]) =
      if (distinctById entities).any fun other => other.id == entity.id then distinctById entities
      else distinctById entities ++ [entity] :=
    List.foldl_append
  rw [step, known]
  simp only [decide_eq_true_eq]

/-- What is gathered are the entities whose ids are not there before them. -/
theorem distinctById_eq_withoutRepeats (entities : List Entity) :
    distinctById entities = withoutRepeats entities := by
  induction entities using List.reverseRecOn with
  | nil => rfl
  | append_singleton entities entity inductionHypothesis =>
    rw [distinctById_concat, withoutRepeats_concat, inductionHypothesis]

/-! ## Grants -/

variable {grant : Grant} {catalog : List Entity} {find? : String → Option Entity} {index : Index}

/-- The entities of a catalog that the filter of a grant matches. -/
def matched (grant : Grant) (catalog : List Entity) (index : Index) : List Entity :=
  catalog.filter fun entity => ∃ filter ∈ grant.filter, filter.Matches index entity

theorem mem_matched_iff {entity : Entity} :
    entity ∈ matched grant catalog index ↔
      entity ∈ catalog ∧ ∃ filter ∈ grant.filter, filter.Matches index entity := by
  rw [matched, List.mem_filter, decide_eq_true_eq]

theorem entities_resolveGrant :
    (resolveGrant grant catalog find? index).entities =
      distinctById (grant.ids.filterMap find? ++ matched grant catalog index) := by
  rcases grant with ⟨ids, _ | filter⟩
  · have unmatched : matched ⟨ids, none⟩ catalog index = [] := by
      simp [matched]
    rw [unmatched]
    rfl
  · have admitted : matched ⟨ids, some filter⟩ catalog index =
        catalog.filter fun entity => filter.admits entity.view index := by
      refine List.filter_congr fun entity _ => ?_
      rw [Bool.eq_iff_iff, Filter.admits_view_iff]
      simp
    rw [admitted]
    rfl

theorem warnings_resolveGrant :
    (resolveGrant grant catalog find? index).warnings =
      (grant.ids.filter fun id => find? id = none).map .entityNotFound ++
        (grant.filter.elim [] (·.invalidQueries)).map .invalidFilter := by
  have missed : ProviderWarning.ofMissing find? grant.ids =
      (grant.ids.filter fun id => find? id = none).map .entityNotFound := by
    refine congrArg (List.map _) (List.filter_congr fun id _ => ?_)
    rw [Bool.eq_iff_iff, Option.isNone_iff_eq_none, decide_eq_true_eq]
  rw [resolveGrant, missed]
  cases grant.filter <;> rfl

/-- What a grant is resolved to is the union of what its ids and its filter
lead to. -/
structure Unites (grant : Grant) (catalog : List Entity) (find? : String → Option Entity)
    (index : Index) (resolution : GrantResolution) : Prop where
  /-- No two entities have one id. -/
  distinct : (resolution.entities.map (·.id)).Nodup
  /-- An id is granted if a listed one leads to it, or if the filter matches an
  entity of the catalog that has it. -/
  mem_iff : ∀ id, id ∈ resolution.entities.map (·.id) ↔
    (∃ listed ∈ grant.ids, ∃ entity, find? listed = some entity ∧ entity.id = id) ∨
      ∃ filter ∈ grant.filter, ∃ entity ∈ catalog, entity.id = id ∧ filter.Matches index entity
  /-- What is looked up comes first and what is matched comes behind it, each at
  the first occurrence of its id. -/
  ordered : resolution.entities =
    withoutRepeats (grant.ids.filterMap find? ++ matched grant catalog index)
  /-- The policy of the filter makes no difference. -/
  anyPolicy : ∀ policy,
    resolveGrant { grant with filter := grant.filter.map (·.withPolicy policy) } catalog find?
      index = resolution
  /-- The ids that lead nowhere are reported, and then the conditions that
  misread. -/
  warned : ∃ problems,
    resolution.warnings = (grant.ids.filter fun id => find? id = none).map .entityNotFound ++
        problems.map .invalidFilter ∧
      List.Forall₂ PropertyCondition.Misreads
        ((grant.filter.elim [] (·.conditions)).filter fun condition =>
          ∃ problem, condition.Misreads problem)
        problems

theorem unites_resolveGrant (grant : Grant) (catalog : List Entity)
    (find? : String → Option Entity) (index : Index) :
    Unites grant catalog find? index (resolveGrant grant catalog find? index) where
  distinct := by
    rw [entities_resolveGrant, map_id_distinctById]
    exact nodup_firstOccurrences _
  mem_iff := by
    intro id
    rw [entities_resolveGrant, map_id_distinctById, mem_firstOccurrences, List.map_append,
      List.mem_append]
    refine or_congr ?_ ?_
    · simp only [List.mem_map, List.mem_filterMap]
      exact ⟨fun ⟨entity, ⟨listed, member, found⟩, same⟩ => ⟨listed, member, entity, found, same⟩,
        fun ⟨listed, member, entity, found, same⟩ => ⟨entity, ⟨listed, member, found⟩, same⟩⟩
    · simp only [List.mem_map, mem_matched_iff]
      exact ⟨fun ⟨entity, ⟨member, filter, set, fits⟩, same⟩ =>
          ⟨filter, set, entity, member, same, fits⟩,
        fun ⟨filter, set, entity, member, same, fits⟩ =>
          ⟨entity, ⟨member, filter, set, fits⟩, same⟩⟩
  ordered := by
    rw [entities_resolveGrant, distinctById_eq_withoutRepeats]
  anyPolicy := by
    intro policy
    rcases grant with ⟨ids, _ | filter⟩ <;> rfl
  warned := by
    refine ⟨_, warnings_resolveGrant, ?_⟩
    cases grant.filter with
    | none => exact .nil
    | some filter => exact filter.forall₂_invalidQueries

/-- What a provider grants is the union of what its ids and its filter lead to:
each id once, first those that are looked up and then those that are matched,
with a warning for each id that leads nowhere and each condition that
misreads. -/
theorem granted_unites (provider : Provider) (grant : Grant)
    (granting : provider.granted = some grant) (catalog : List Entity)
    (find? : String → Option Entity) (index : Index) :
    ∃ resolution, (provider.resolve catalog find? index).granted = some resolution ∧
      Unites grant catalog find? index resolution := by
  refine ⟨resolveGrant grant catalog find? index, ?_, unites_resolveGrant grant catalog find? index⟩
  rw [resolve, granting, Option.map_some]

/-- A feat that is listed twice, one that is listed by an old name, one that is
not there any more, and all feats for combat. -/
def combatFeats : Grant :=
  { ids := ["cleave", "ghost", "evasion", "cleave"]
    filter := some ⟨.any, .permissive,
      [.onField "category" (.compare .equal) (.str "combat"), .onQuery "tags[" .isIn .null]⟩ }

theorem granted_unites_combatFeats :
    let feat (id category : String) :=
      (Entity.ofType id (some "feat")).set "category" (.str category)
    let catalog := [feat "power-attack" "combat", feat "cleave" "combat", feat "focus" "magic"]
    let find? (id : String) :=
      if id = "evasion" then some (feat "dodge" "combat") else catalog.find? (·.id == id)
    let provider := Provider.ofGrant combatFeats
    provider.granted = some combatFeats ∧
      ∃ resolution, (provider.resolve catalog find? Index.empty).granted = some resolution ∧
        resolution.entities.map (·.id) = ["cleave", "dodge", "power-attack"] ∧
        resolution.warnings.map (·.kind) = ["entity_not_found", "invalid_filter"] := by
  intro feat catalog find? provider
  rcases granted_unites provider combatFeats rfl catalog find? Index.empty with
    ⟨resolution, resolved, unites⟩
  rcases unites.warned with ⟨problems, warnings, reported⟩
  have single : problems.length = 1 := reported.length_eq.symm.trans (by decide +kernel)
  rcases List.length_eq_one_iff.mp single with ⟨problem, rfl⟩
  refine ⟨rfl, resolution, resolved, ?_, ?_⟩
  · rw [unites.ordered]
    decide +kernel
  · rw [warnings]
    rfl

end Provider
end CharacterSheet
