import CharacterSheet.Proofs.Filter.Verdict
import CharacterSheet.Proofs.Selection.Bounds
import CharacterSheet.Proofs.SortedMap
import CharacterSheet.Provider.Resolution

/-!
# What is offered can be chosen without warnings

A selector is used twice, and each use goes its own way.  Resolving a provider
narrows the catalog down to a pool by ids and type and judges what is left by
the filter; choosing an entity goes through the same restrictions one by one
and warns of each that the entity does not meet.  Where ids tell the entities
of the catalog apart, the two agree: what is offered as matching is what can be
chosen without a warning.
-/

namespace CharacterSheet
namespace Selection

/-- The entity of a catalog that has an id. -/
def lookUp (catalog : List Entity) (id : String) : Option Entity :=
  catalog.find? (·.id == id)

/-- A provider offers an entity of a catalog, and its filter matches. -/
def Offers (provider : Provider) (catalog : List Entity) (index : Index) (entity : Entity) :
    Prop :=
  ∃ resolution, (provider.resolve catalog (lookUp catalog) index).selector = some resolution ∧
    ∃ verdict ∈ resolution.eligible, verdict.entity = entity ∧ verdict.isMatch = true

variable {selector : Selector} {catalog : List Entity} {entity : Entity} {index : Index}

theorem warnIf_eq_nil_iff {cause : Bool} {warning : SelectionWarning} :
    warnIf cause warning = [] ↔ cause = false := by
  cases cause <;> simp [warnIf]

/-- An entity of the catalog meets with no warning if it is allowed, of the
right type and not rejected by the filter. -/
theorem choiceWarnings_eq_nil_iff (listed : entity ∈ catalog) :
    choiceWarnings selector entity catalog index = [] ↔
      isNotAllowed selector entity = false ∧ typeWarning? selector entity = none ∧
        rejectedByFilter selector entity index = false := by
  have known : isUnknown catalog entity = false := by
    rw [isUnknown, Bool.not_eq_false', List.any_eq_true]
    exact ⟨entity, listed, beq_self_eq_true _⟩
  simp only [choiceWarnings, List.append_eq_nil_iff, warnIf_eq_nil_iff, Option.toList_eq_nil_iff,
    known, and_true]
  exact ⟨fun ⟨⟨met, allowed⟩, typed⟩ => ⟨allowed, typed, met⟩,
    fun ⟨allowed, typed, met⟩ => ⟨⟨met, allowed⟩, typed⟩⟩

section Pool

variable (distinct : (catalog.map (·.id)).Nodup) (listed : entity ∈ catalog)

include distinct listed

theorem lookUp_eq_some_iff {id : String} :
    lookUp catalog id = some entity ↔ entity.id = id :=
  (find?_key_eq_some_iff Entity.id distinct).trans (and_iff_right listed)

/-- Looking up the allowed ids, or taking the catalog as it is, leads to the
entities that are allowed. -/
theorem mem_allowed_iff :
    entity ∈ (if selector.allowed.isEmpty then catalog
        else selector.allowed.filterMap (lookUp catalog)) ↔
      isNotAllowed selector entity = false := by
  unfold isNotAllowed
  cases selector.allowed.isEmpty with
  | true => simpa using listed
  | false =>
    simp only [Bool.false_eq_true, if_false, List.mem_filterMap, Bool.not_false, Bool.true_and,
      Bool.not_eq_false', List.contains_iff_mem, lookUp_eq_some_iff distinct listed,
      exists_eq_right']

/-- The pool of a selector holds the entities that it restricts neither by id
nor by type. -/
theorem mem_pool_iff :
    entity ∈ Provider.pool selector catalog (lookUp catalog) ↔
      isNotAllowed selector entity = false ∧ typeWarning? selector entity = none := by
  unfold Provider.pool typeWarning?
  cases selector.type with
  | none =>
    dsimp only
    rw [mem_allowed_iff distinct listed, and_iff_left rfl]
  | some expected =>
    dsimp only
    rw [List.mem_filter, mem_allowed_iff distinct listed]
    cases entity.type == some expected <;> simp

end Pool

/-- Whatever the policy of its filter, a selector offers those entities of its
pool as matching that the filter does not reject. -/
theorem exists_match_iff {entities : List Entity} :
    (∃ verdict ∈ Filter.apply selector.filter.toList entities index,
        verdict.entity = entity ∧ verdict.isMatch = true) ↔
      entity ∈ entities ∧ rejectedByFilter selector entity index = false := by
  have judged : (Filter.judge selector.filter.toList entity index).isMatch =
      !rejectedByFilter selector entity index := by
    rw [Filter.isMatch_judge]
    unfold Filter.allAdmit rejectedByFilter
    cases selector.filter <;> simp
  rw [Filter.apply, Filter.applyWithPolicy]
  constructor
  · rintro ⟨verdict, kept, isEntity, isMatch⟩
    rcases List.mem_map.mp (List.mem_filter.mp kept).1 with ⟨other, member, rfl⟩
    have same : other = entity := Filter.entity_judge.symm.trans isEntity
    subst same
    rw [judged, Bool.not_eq_true'] at isMatch
    exact ⟨member, isMatch⟩
  · rintro ⟨member, met⟩
    rw [met, Bool.not_false] at judged
    refine ⟨_, List.mem_filter.mpr ⟨List.mem_map_of_mem member, ?_⟩, Filter.entity_judge, judged⟩
    rw [judged, Bool.or_true]

/-- As long as nothing is chosen and a choice is allowed, every entity of a
catalog with distinct ids can be chosen, and no warning comes up exactly if the
provider offers the entity as matching. -/
theorem silent_iff_offered (selector : Selector) (provider : Provider) (catalog : List Entity)
    (index : Index) (entity : Entity) (offering : provider.selector = some selector)
    (unchosen : provider.entities.selected = []) (room : 1 ≤ selector.max)
    (distinct : (catalog.map (·.id)).Nodup) (listed : entity ∈ catalog) :
    let applied := apply provider entity catalog index
    applied.isApplied = true ∧ (applied.warnings = [] ↔ Offers provider catalog index entity) := by
  intro applied
  have possible : CanChoose provider entity := by
    refine ⟨selector, offering, ?_, ?_⟩
    · simp [selectedIds, unchosen]
    · rw [unchosen]
      exact room
  refine ⟨isApplied_apply_iff.mpr possible, ?_⟩
  have warnings : applied.warnings = choiceWarnings selector entity catalog index := by
    show (apply provider entity catalog index).warnings = _
    rw [apply, refusal?_eq_none_iff.mpr possible, offering]
    rfl
  have offers : Offers provider catalog index entity ↔
      ∃ verdict ∈ Filter.apply selector.filter.toList
          (Provider.pool selector catalog (lookUp catalog)) index,
        verdict.entity = entity ∧ verdict.isMatch = true := by
    simp [Offers, Provider.resolve, offering, Provider.resolveSelector]
  rw [warnings, choiceWarnings_eq_nil_iff listed, offers, exists_match_iff,
    mem_pool_iff distinct listed, and_assoc]

/-- A selector that restricts ids, types and categories, and lists what its
filter does not match. -/
def combatFeats : Selector :=
  { id := "feat", name := "", type := some "feat", allowed := ["cleave", "ghost", "focus"]
    filter := some ⟨.all, .permissive, [⟨some "category", none, .compare .equal, .str "combat"⟩]⟩
    min := 1, max := 1 }

theorem silent_iff_offered_combatFeats :
    let cleave := (Entity.ofType "cleave" (some "feat")).set "category" (.str "combat")
    let focus := (Entity.ofType "focus" (some "feat")).set "category" (.str "magic")
    let catalog := [Entity.ofType "dodge" (some "feat"), focus, cleave]
    let provider := Provider.ofSelector combatFeats
    (provider.selector = some combatFeats ∧ provider.entities.selected = [] ∧
        1 ≤ combatFeats.max ∧ (catalog.map (·.id)).Nodup) ∧
      (cleave ∈ catalog ∧ Offers provider catalog Index.empty cleave) ∧
      focus ∈ catalog ∧ ¬ Offers provider catalog Index.empty focus := by
  intro cleave focus catalog provider
  have distinct : (catalog.map (·.id)).Nodup := by decide
  have cleaveListed : cleave ∈ catalog := by simp [catalog]
  have focusListed : focus ∈ catalog := by simp [catalog]
  have ofCleave := silent_iff_offered combatFeats provider catalog Index.empty cleave rfl rfl
    (Nat.le_refl 1) distinct cleaveListed
  have ofFocus := silent_iff_offered combatFeats provider catalog Index.empty focus rfl rfl
    (Nat.le_refl 1) distinct focusListed
  exact ⟨⟨rfl, rfl, Nat.le_refl 1, distinct⟩,
    ⟨cleaveListed, ofCleave.2.mp (by decide +kernel)⟩,
    focusListed, fun offered => absurd (ofFocus.2.mpr offered) (by decide +kernel)⟩

end Selection
end CharacterSheet
