import CharacterSheet.Filter.Evaluation

/-!
# What verdicts say

Filters are asked in two ways.  A verdict goes through all of them and lists
the outcome of every condition on its way; a mere check ends at the first
filter that does not match.  Both come to the same answer, which depends only
on the conditions that pass by themselves, and on the logic of each filter.
The policy decides which verdicts are kept and changes none of them.

`extendVerdict` is one step of a verdict.  `foldl_extendVerdict` says what all
steps make of a verdict that is there already, and everything else about
verdicts is read off it.
-/

namespace CharacterSheet
namespace Filter

variable {filters : List Filter} {filter : Filter} {conditions : List PropertyCondition}
  {view : Json} {entity : Entity} {index : Index} {policy : Policy}

/-- A condition passes by itself, whatever filter it is a part of. -/
def Passes (view : Json) (index : Index) (condition : PropertyCondition) : Prop :=
  (condition.evaluate view index).passed = true

/-- What a logic demands of the conditions of a filter. -/
def Logic.Demands (passes : PropertyCondition → Prop) (conditions : List PropertyCondition) :
    Logic → Prop
  | .all => ∀ condition ∈ conditions, passes condition
  | .any => ∃ condition ∈ conditions, passes condition
  | .none => ∀ condition ∈ conditions, ¬ passes condition

/-! ## One filter -/

theorem admits_iff :
    filter.admits view index = true ↔
      filter.logic.Demands (Passes view index) filter.conditions := by
  unfold admits evaluated
  cases filter.logic <;> simp [Logic.combine, Logic.Demands, Passes]

/-- An entity is what a filter asks for, whatever the policy of the filter. -/
def Matches (filter : Filter) (index : Index) (entity : Entity) : Prop :=
  filter.logic.Demands (Passes entity.view index) filter.conditions

theorem admits_view_iff : filter.admits entity.view index = true ↔ filter.Matches index entity :=
  admits_iff

/-- That no condition passes is the opposite of one passing. -/
theorem admits_none (kept other : Policy) (conditions : List PropertyCondition) :
    admits ⟨.none, kept, conditions⟩ view index = !admits ⟨.any, other, conditions⟩ view index := by
  rw [Bool.eq_iff_iff, Bool.not_eq_true', ← Bool.not_eq_true, admits_iff, admits_iff]
  simp only [Logic.Demands, not_exists, not_and]

/-! ## All filters -/

theorem allAdmit_iff :
    allAdmit filters entity index = true ↔
      ∀ filter ∈ filters, filter.logic.Demands (Passes entity.view index) filter.conditions := by
  simp only [allAdmit, List.all_eq_true, admits_iff]

/-- All steps of a verdict: it matches if it did before and all filters admit
the entity, and the outcomes of their conditions are added. -/
theorem foldl_extendVerdict (filters : List Filter) (verdict : Verdict) :
    filters.foldl (extendVerdict view index) verdict =
      ⟨verdict.entity, verdict.isMatch && filters.all fun filter => filter.admits view index,
        verdict.evaluated ++ filters.flatMap fun filter => filter.evaluated view index⟩ := by
  induction filters generalizing verdict with
  | nil => simp
  | cons first rest inductionHypothesis =>
    rw [List.foldl_cons, inductionHypothesis]
    simp only [extendVerdict, admits, List.all_cons, List.flatMap_cons, Bool.and_assoc,
      List.append_assoc]

/-- Going through all filters comes to the same answer as a check that ends at
the first one that does not match. -/
theorem isMatch_judge : (judge filters entity index).isMatch = allAdmit filters entity index := by
  rw [judge, foldl_extendVerdict, Bool.true_and, allAdmit]

theorem entity_judge : (judge filters entity index).entity = entity := by
  rw [judge, foldl_extendVerdict]

theorem evaluated_judge :
    (judge filters entity index).evaluated =
      (filters.flatMap (·.conditions)).map fun condition =>
        condition.evaluate entity.view index := by
  rw [judge, foldl_extendVerdict, List.nil_append, List.map_flatMap]
  rfl

/-- A filter that is asked once more, wherever in the list, has no say. -/
theorem allAdmit_repeated {before after : List Filter} (member : filter ∈ before ++ after) :
    allAdmit (before ++ filter :: after) entity index = allAdmit (before ++ after) entity index := by
  have sameFilters : ∀ other, other ∈ before ++ filter :: after ↔ other ∈ before ++ after := by
    intro other
    rw [List.mem_append, List.mem_cons, or_left_comm, ← List.mem_append]
    exact or_iff_right_of_imp fun same => same ▸ member
  rw [Bool.eq_iff_iff, allAdmit_iff, allAdmit_iff]
  simp only [sameFilters]

/-! ## Policies -/

theorem applyWithPolicy_permissive (filters : List Filter) (entities : List Entity)
    (index : Index) :
    applyWithPolicy filters .permissive entities index =
      entities.map fun entity => judge filters entity index := by
  rw [applyWithPolicy, List.filter_eq_self]
  intro verdict _
  rfl

theorem applyWithPolicy_strict (filters : List Filter) (entities : List Entity) (index : Index) :
    applyWithPolicy filters .strict entities index =
      (applyWithPolicy filters .permissive entities index).filter (·.isMatch) := by
  rw [applyWithPolicy_permissive, applyWithPolicy]
  rfl

/-- Whom filters list, and whether they match, depends on no more than who is
admitted. -/
theorem answers_congr {others : List Filter} (entities : List Entity)
    (same : ∀ entity, allAdmit filters entity index = allAdmit others entity index) :
    (applyWithPolicy filters policy entities index).map
        (fun verdict => (verdict.entity, verdict.isMatch)) =
      (applyWithPolicy others policy entities index).map
        fun verdict => (verdict.entity, verdict.isMatch) := by
  have answers : ∀ asked : List Filter,
      (applyWithPolicy asked policy entities index).map
          (fun verdict => (verdict.entity, verdict.isMatch)) =
        (entities.map fun entity => (entity, allAdmit asked entity index)).filter
          fun answer => policy = .permissive || answer.2 := by
    intro asked
    have paired : (fun entity => (entity, allAdmit asked entity index)) =
        (fun verdict : Verdict => (verdict.entity, verdict.isMatch)) ∘
          fun entity => judge asked entity index := by
      funext entity
      rw [Function.comp_apply, entity_judge, isMatch_judge]
    rw [paired, ← List.map_map, List.filter_map, applyWithPolicy]
    rfl
  rw [answers filters, answers others]
  simp only [same]

/-- What verdicts on entities promise. -/
structure Coherent (filters : List Filter) (entities : List Entity) (index : Index) : Prop where
  /-- A permissive policy gives one verdict for each entity, in their order. -/
  permissive : (applyWithPolicy filters .permissive entities index).map (·.entity) = entities
  /-- A strict policy keeps those of these verdicts that match. -/
  strict : applyWithPolicy filters .strict entities index =
    (applyWithPolicy filters .permissive entities index).filter (·.isMatch)
  /-- A verdict agrees with the check that lists nothing. -/
  checked : ∀ verdict ∈ applyWithPolicy filters .permissive entities index,
    verdict.isMatch = allAdmit filters verdict.entity index
  /-- A verdict is a match if each filter finds what its logic demands of its
  conditions. -/
  isMatch_iff : ∀ verdict ∈ applyWithPolicy filters .permissive entities index,
    verdict.isMatch = true ↔ ∀ filter ∈ filters,
      filter.logic.Demands (Passes verdict.entity.view index) filter.conditions
  /-- A verdict lists the outcomes of all conditions. -/
  listed : ∀ verdict ∈ applyWithPolicy filters .permissive entities index,
    verdict.evaluated = (filters.flatMap (·.conditions)).map fun condition =>
      condition.evaluate verdict.entity.view index
  /-- A filter that wants no condition to pass matches where one that wants
  some condition to pass does not. -/
  negation : ∀ (kept other : Policy) (conditions : List PropertyCondition),
    (applyWithPolicy [⟨.none, kept, conditions⟩] .permissive entities index).map (·.isMatch) =
      (applyWithPolicy [⟨.any, other, conditions⟩] .permissive entities index).map (!·.isMatch)
  /-- Asking a filter once more changes no answer. -/
  repetition : ∀ (before after : List Filter), filters = before ++ after →
    ∀ filter ∈ filters, ∀ policy : Policy,
      (applyWithPolicy (before ++ filter :: after) policy entities index).map
          (fun verdict => (verdict.entity, verdict.isMatch)) =
        (applyWithPolicy filters policy entities index).map
          fun verdict => (verdict.entity, verdict.isMatch)

/-- Verdicts are coherent, whatever the filters, entities and published
values. -/
theorem verdicts_coherent (filters : List Filter) (entities : List Entity) (index : Index) :
    Coherent filters entities index where
  permissive := by
    rw [applyWithPolicy_permissive, List.map_map]
    exact (List.map_congr_left fun entity _ => entity_judge).trans (List.map_id entities)
  strict := applyWithPolicy_strict filters entities index
  checked := by
    rw [applyWithPolicy_permissive, List.forall_mem_map]
    intro entity _
    rw [isMatch_judge, entity_judge]
  isMatch_iff := by
    rw [applyWithPolicy_permissive, List.forall_mem_map]
    intro entity _
    rw [isMatch_judge, entity_judge, allAdmit_iff]
  listed := by
    rw [applyWithPolicy_permissive, List.forall_mem_map]
    intro entity _
    rw [evaluated_judge, entity_judge]
  negation := by
    intro kept other conditions
    rw [applyWithPolicy_permissive, applyWithPolicy_permissive, List.map_map, List.map_map]
    refine List.map_congr_left fun entity _ => ?_
    simp only [Function.comp_apply, isMatch_judge, allAdmit, List.all_cons, List.all_nil,
      Bool.and_true]
    exact admits_none kept other conditions
  repetition := by
    rintro before after rfl filter member policy
    exact answers_congr entities fun entity => allAdmit_repeated member

end Filter
end CharacterSheet
