import CharacterSheet.Proofs.Provider.Granting
import CharacterSheet.Proofs.Selection.Offer

/-!
# What is offered is a part of the catalog

A selector narrows a catalog down by ids, by type and, under a strict policy, by
its filter.  If ids tell the entities of the catalog apart, what it offers is
told by these restrictions alone, and every verdict is that of the filter.

The catalog is not gone through, though, when ids are listed: each is looked up
in its turn, so that an entity is offered as often as its id is listed.
-/

namespace CharacterSheet
namespace Provider

open Selection (lookUp)

variable {selector : Selector} {catalog : List Entity} {index : Index} {entity : Entity}
  {find? : String → Option Entity}

/-- An entity is what a selector asks for, apart from its id. -/
def Suits (selector : Selector) (index : Index) (entity : Entity) : Prop :=
  (∀ type ∈ selector.type, entity.type = some type) ∧
    ∀ filter ∈ selector.filter, filter.policy = .strict → filter.Matches index entity

instance (selector : Selector) (index : Index) (entity : Entity) :
    Decidable (Suits selector index entity) :=
  inferInstanceAs (Decidable (_ ∧ _))

/-- The entities to which the allowed ids lead, or the catalog if all ids are
allowed. -/
def listed (selector : Selector) (catalog : List Entity) (find? : String → Option Entity) :
    List Entity :=
  if selector.allowed.isEmpty then catalog else selector.allowed.filterMap find?

theorem matches_of_judge {filter? : Option Filter} :
    (Filter.judge filter?.toList entity index).isMatch = true ↔
      ∀ filter ∈ filter?, filter.Matches index entity := by
  rw [Filter.isMatch_judge, Filter.allAdmit_iff]
  simp only [Option.mem_toList]
  rfl

theorem pool_eq_filter :
    pool selector catalog find? =
      (listed selector catalog find?).filter fun entity =>
        ∀ type ∈ selector.type, entity.type = some type := by
  unfold pool listed
  cases selector.type with
  | none => simp
  | some type =>
    refine List.filter_congr fun entity _ => ?_
    rw [Bool.eq_iff_iff, beq_iff_eq]
    simp

/-- What a filter leaves of some entities, whatever it says of them. -/
theorem entities_apply {filter? : Option Filter} {entities : List Entity} :
    (Filter.apply filter?.toList entities index).map (·.entity) =
      entities.filter fun entity =>
        ∀ filter ∈ filter?, filter.policy = .strict → filter.Matches index entity := by
  have subject : (fun verdict : Verdict => verdict.entity) ∘
      (fun entity => Filter.judge filter?.toList entity index) = id :=
    funext fun entity => Filter.entity_judge
  rw [Filter.apply, Filter.applyWithPolicy, List.filter_map, List.map_map, subject, List.map_id]
  refine List.filter_congr fun entity _ => ?_
  rw [Bool.eq_iff_iff, Function.comp_apply, Bool.or_eq_true, decide_eq_true_eq, matches_of_judge]
  cases filter? with
  | none => simp
  | some filter =>
    cases policy : filter.policy <;> simp [Filter.sharedPolicy, policy]

/-- What is offered are the listed entities that suit. -/
theorem entities_resolveSelector :
    (resolveSelector selector catalog find? index).eligible.map (·.entity) =
      (listed selector catalog find?).filter fun entity => Suits selector index entity := by
  rw [resolveSelector, entities_apply, pool_eq_filter, List.filter_filter]
  refine List.filter_congr fun entity _ => ?_
  rw [Bool.eq_iff_iff, Bool.and_eq_true, decide_eq_true_eq, decide_eq_true_eq, decide_eq_true_eq,
    and_comm]
  rfl

/-! ## Looking ids up in the catalog -/

/-- An entity that is found under an id has it. -/
theorem id_of_lookUp {id : String} (found : lookUp catalog id = some entity) : entity.id = id := by
  simpa using List.find?_some found

/-- Entities that are looked up one by one have the ids that are listed, those
that lead to something that is kept. -/
theorem map_id_filter_lookUp (keeps : Entity → Bool) (ids : List String) :
    ((ids.filterMap (lookUp catalog)).filter keeps).map (·.id) =
      ids.filter fun id => (lookUp catalog id).any keeps := by
  induction ids with
  | nil => rfl
  | cons id rest inductionHypothesis =>
    cases found : lookUp catalog id with
    | none => simpa [found] using inductionHypothesis
    | some entity =>
      cases kept : keeps entity with
      | false => simpa [found, kept] using inductionHypothesis
      | true => simpa [found, kept, id_of_lookUp found] using inductionHypothesis

section Distinct

variable (distinct : (catalog.map (·.id)).Nodup)

include distinct

theorem mem_listed_iff :
    entity ∈ listed selector catalog (lookUp catalog) ↔
      entity ∈ catalog ∧ (selector.allowed ≠ [] → entity.id ∈ selector.allowed) := by
  unfold listed
  cases selector.allowed with
  | nil => simp
  | cons first rest =>
    have found : ∀ id, lookUp catalog id = some entity ↔ entity ∈ catalog ∧ entity.id = id :=
      fun id => find?_key_eq_some_iff Entity.id distinct
    rw [List.isEmpty_cons, if_neg Bool.false_ne_true, List.mem_filterMap]
    simp only [found]
    constructor
    · rintro ⟨_, member, known, rfl⟩
      exact ⟨known, fun _ => member⟩
    · rintro ⟨known, member⟩
      exact ⟨entity.id, member (List.cons_ne_nil _ _), known, rfl⟩

/-- An entity is offered as often as its id is listed, and once if all ids are
allowed. -/
theorem count_id_offered (keeps : Entity → Bool)
    (member : entity ∈ (listed selector catalog (lookUp catalog)).filter keeps) :
    (((listed selector catalog (lookUp catalog)).filter keeps).map (·.id)).count entity.id =
      max 1 (selector.allowed.count entity.id) := by
  have present : entity.id ∈
      ((listed selector catalog (lookUp catalog)).filter keeps).map (·.id) :=
    List.mem_map_of_mem member
  by_cases all : selector.allowed = []
  · have whole : listed selector catalog (lookUp catalog) = catalog := by
      rw [listed, all]
      rfl
    rw [whole] at present ⊢
    rw [all, List.count_nil, Nat.max_eq_left (Nat.zero_le 1)]
    exact List.count_eq_one_of_mem ((List.filter_sublist.map _).nodup distinct) present
  · have looked : listed selector catalog (lookUp catalog) =
        selector.allowed.filterMap (lookUp catalog) := by
      rw [listed, if_neg]
      simpa using all
    rw [looked, map_id_filter_lookUp] at present ⊢
    rcases List.mem_filter.mp present with ⟨isListed, leads⟩
    rw [List.count_filter (p := fun id => (lookUp catalog id).any keeps) leads,
      Nat.max_eq_right (List.count_pos_iff.mpr isListed)]

end Distinct

/-- What a selector offers is a part of a catalog. -/
structure PartOfCatalog (selector : Selector) (catalog : List Entity) (index : Index)
    (eligible : List Verdict) : Prop where
  /-- An entity is offered if it is in the catalog, allowed, of the right type
  and, under a strict policy, what the filter asks for. -/
  mem_iff : ∀ entity, entity ∈ eligible.map (·.entity) ↔
    entity ∈ catalog ∧ (selector.allowed ≠ [] → entity.id ∈ selector.allowed) ∧
      (∀ type ∈ selector.type, entity.type = some type) ∧
      ∀ filter ∈ selector.filter, filter.policy = .strict → filter.Matches index entity
  /-- A verdict is that of the filter. -/
  isMatch_iff : ∀ verdict ∈ eligible,
    verdict.isMatch = true ↔ ∀ filter ∈ selector.filter, filter.Matches index verdict.entity
  /-- An entity is offered as often as its id is listed, and once if all ids are
  allowed. -/
  count_id : ∀ verdict ∈ eligible, (eligible.map (·.entity.id)).count verdict.entity.id =
    max 1 (selector.allowed.count verdict.entity.id)

theorem partOfCatalog_resolveSelector (selector : Selector) {catalog : List Entity}
    (index : Index) (distinct : (catalog.map (·.id)).Nodup) :
    PartOfCatalog selector catalog index
      (resolveSelector selector catalog (lookUp catalog) index).eligible where
  mem_iff := by
    intro entity
    rw [entities_resolveSelector, List.mem_filter, mem_listed_iff distinct, decide_eq_true_eq,
      and_assoc]
    rfl
  isMatch_iff := by
    intro verdict member
    rcases List.mem_map.mp (List.mem_filter.mp member).1 with ⟨entity, -, rfl⟩
    rw [matches_of_judge, Filter.entity_judge]
  count_id := by
    intro verdict member
    have offered := List.mem_map_of_mem (f := (·.entity)) member
    have ids : (resolveSelector selector catalog (lookUp catalog) index).eligible.map
        (·.entity.id) =
          ((resolveSelector selector catalog (lookUp catalog) index).eligible.map
            (·.entity)).map (·.id) :=
      (List.map_map ..).symm
    rw [ids]
    rw [entities_resolveSelector] at offered ⊢
    exact count_id_offered distinct _ offered

/-- An entity occurs twice if the id of an offered one is listed twice. -/
theorem PartOfCatalog.nodup_iff {eligible : List Verdict}
    (part : PartOfCatalog selector catalog index eligible)
    (distinct : (catalog.map (·.id)).Nodup) :
    (eligible.map (·.entity)).Nodup ↔
      ∀ verdict ∈ eligible, selector.allowed.count verdict.entity.id ≤ 1 := by
  have ids : eligible.map (·.entity.id) = (eligible.map (·.entity)).map (·.id) :=
    (List.map_map ..).symm
  have known : ∀ entity ∈ eligible.map (·.entity), entity ∈ catalog := fun entity member =>
    ((part.mem_iff entity).mp member).1
  have byId : (eligible.map (·.entity)).Nodup ↔ (eligible.map (·.entity.id)).Nodup := by
    rw [ids]
    refine ⟨fun nodup => nodup.map_on fun first isFirst second isSecond same => ?_,
      List.Nodup.of_map _⟩
    exact List.inj_on_of_nodup_map distinct (known first isFirst) (known second isSecond) same
  rw [byId, List.nodup_iff_count_le_one]
  constructor
  · intro single verdict member
    have once := single verdict.entity.id
    rw [part.count_id verdict member] at once
    exact Nat.le_trans (Nat.le_max_right _ _) once
  · intro single id
    by_cases member : id ∈ eligible.map (·.entity.id)
    · rcases List.mem_map.mp member with ⟨verdict, offered, rfl⟩
      rw [part.count_id verdict offered]
      exact Nat.max_le.mpr ⟨Nat.le_refl 1, single verdict offered⟩
    · rw [List.count_eq_zero.mpr member]
      exact Nat.zero_le 1

/-- What a provider offers from a catalog in which ids are distinct is the part
of it that the selector asks for, with the verdicts of its filter.  No entity
occurs in it twice if and only if no id of an offered entity is listed twice. -/
theorem nodup_offered_iff (provider : Provider) (selector : Selector)
    (offering : provider.selector = some selector) (catalog : List Entity)
    (distinct : (catalog.map (·.id)).Nodup) (index : Index) :
    ∃ resolution, (provider.resolve catalog (lookUp catalog) index).selector = some resolution ∧
      PartOfCatalog selector catalog index resolution.eligible ∧
      ((resolution.eligible.map (·.entity)).Nodup ↔
        ∀ verdict ∈ resolution.eligible, selector.allowed.count verdict.entity.id ≤ 1) := by
  have part := partOfCatalog_resolveSelector selector index distinct
  refine ⟨resolveSelector selector catalog (lookUp catalog) index, ?_, part,
    part.nodup_iff distinct⟩
  rw [resolve, offering, Option.map_some]

theorem nodup_offered_iff_combatFeats :
    let cleave := (Entity.ofType "cleave" (some "feat")).set "category" (.str "combat")
    let focus := (Entity.ofType "focus" (some "feat")).set "category" (.str "magic")
    let catalog := [Entity.ofType "dodge" (some "feat"), focus, cleave]
    let provider := Provider.ofSelector Selection.combatFeats
    (provider.selector = some Selection.combatFeats ∧ (catalog.map (·.id)).Nodup) ∧
      ∃ resolution, (provider.resolve catalog (lookUp catalog) Index.empty).selector =
          some resolution ∧
        (resolution.eligible.map (·.entity)).Nodup ∧
        ∃ verdict ∈ resolution.eligible, verdict.entity = focus ∧ verdict.isMatch = false := by
  intro cleave focus catalog provider
  have distinct : (catalog.map (·.id)).Nodup := by decide
  rcases nodup_offered_iff provider Selection.combatFeats rfl catalog distinct Index.empty with
    ⟨resolution, resolved, part, nodup_iff⟩
  have offered : focus ∈ resolution.eligible.map (·.entity) := by
    refine (part.mem_iff focus).mpr ⟨by simp [catalog], fun _ => by decide, ?_, ?_⟩
    · rintro _ ⟨⟩
      rfl
    · rintro _ ⟨⟩ ⟨⟩
  rcases List.mem_map.mp offered with ⟨verdict, member, same⟩
  refine ⟨⟨rfl, distinct⟩, resolution, resolved, nodup_iff.mpr fun verdict _ => ?_, verdict,
    member, same, ?_⟩
  · exact List.nodup_iff_count_le_one.mp (by decide) verdict.entity.id
  · rw [Bool.eq_false_iff, Ne, part.isMatch_iff verdict member, same]
    intro fits
    exact absurd (fits _ rfl) (by decide +kernel)

/-- Of two feats one is listed at the top and at the end, and so is offered
twice. -/
theorem not_nodup_offered_twice :
    let selector := { Selector.unrestricted "feat" 1 2 with allowed := ["dodge", "cleave", "dodge"] }
    let cleave := Entity.ofType "cleave" (some "feat")
    let dodge := Entity.ofType "dodge" (some "feat")
    (([cleave, dodge].map (·.id)).Nodup) ∧
      ∃ resolution, ((Provider.ofSelector selector).resolve [cleave, dodge]
          (lookUp [cleave, dodge]) Index.empty).selector = some resolution ∧
        resolution.eligible.map (·.entity) = [dodge, cleave, dodge] ∧
        ¬ (resolution.eligible.map (·.entity)).Nodup := by
  intro selector cleave dodge
  have offered : (resolveSelector selector [cleave, dodge] (lookUp [cleave, dodge])
      Index.empty).eligible.map (·.entity) = [dodge, cleave, dodge] := rfl
  refine ⟨by decide, _, rfl, offered, fun nodup => ?_⟩
  rw [offered] at nodup
  exact (List.nodup_cons.mp nodup).1 (by simp)

end Provider
end CharacterSheet
