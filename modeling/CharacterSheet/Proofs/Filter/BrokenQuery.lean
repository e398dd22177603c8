import CharacterSheet.Condition.Evaluation
import CharacterSheet.Proofs.Filter.Verdict
import CharacterSheet.Provider.Resolution
import CharacterSheet.Suppression.Calculation
import Mathlib.Data.List.Basic

/-!
# Queries that cannot be parsed

A condition whose query cannot be parsed reads no value.  Every operator that
compares rejects that, so a filter that wants all its conditions to pass is
closed: nothing matches it, and whoever goes by it grants, suppresses, counts
and offers nothing.

The operator that checks embedded conditions takes a value that was not read
for a list of conditions that is not there, which is satisfied.  Under this
operator a broken query is as if its condition were not there.
-/

namespace CharacterSheet

namespace PropertyCondition

/-- A condition without a field path, whose query cannot be parsed. -/
structure HasBrokenQuery (condition : PropertyCondition) : Prop where
  fieldless : condition.field = none
  broken : ∃ query problem, condition.query = some query ∧
    Query.Expression.parse query = .error problem

variable {condition : PropertyCondition}

theorem actualValue?_of_broken (broken : condition.HasBrokenQuery) (view : Json) :
    condition.actualValue? view = none := by
  rcases broken with ⟨fieldless, query, problem, known, fails⟩
  simp only [actualValue?, fieldless, known, fails, Option.filter_none]

/-- What cannot be read passes as embedded conditions and as nothing else. -/
theorem passed_of_broken (broken : condition.HasBrokenQuery) (view : Json) (index : Index) :
    (condition.evaluate view index).passed = true ↔ condition.operator = .meetsConditions := by
  unfold evaluate
  rw [actualValue?_of_broken broken]
  by_cases embedded : condition.operator = .meetsConditions
  · simp only [embedded, if_true, embeddedHold]
  · simp only [embedded, if_false, accepts, Bool.false_eq_true]

end PropertyCondition

namespace Suppression

/-- The rule without its filter. -/
def Rule.unfiltered (rule : Rule) : Rule :=
  { rule with filter := none }

/-- The entity with other rules. -/
def reviseRules (revise : Rule → Rule) (entity : Entity) : Entity :=
  { entity with suppression := entity.suppression.map revise }

variable {entities : List Entity} {index : Index} {scope : Scope} {revise : Rule → Rule}

/-- Revised rules change nothing as long as each claims the same as before. -/
theorem calculate_reviseRules (sameScope : ∀ rule, (revise rule).scope = rule.scope)
    (sameClaims : ∀ suppressor rule,
      ruleClaims entities index suppressor (revise rule) =
        ruleClaims entities index suppressor rule) :
    calculate (entities.map (reviseRules revise)) index scope = calculate entities index scope := by
  have named : ∀ rule suppressor, namedTargets rule suppressor (entities.map (reviseRules revise)) =
      namedTargets rule suppressor entities := by
    intro rule suppressor
    simp only [namedTargets, List.any_map]
    rfl
  have matched : ∀ rule suppressor,
      matchedTargets rule suppressor (entities.map (reviseRules revise)) index =
        matchedTargets rule suppressor entities index := by
    intro rule suppressor
    unfold matchedTargets
    cases rule.filter with
    | none => rfl
    | some filter =>
      simp only [List.filter_map, List.map_map]
      rfl
  have claimed : ∀ actor,
      claims (entities.map (reviseRules revise)) index scope (reviseRules revise actor) =
        claims entities index scope actor := by
    intro actor
    have covered : ((fun rule : Rule => rule.scope.covers scope) ∘ revise) =
        fun rule => rule.scope.covers scope :=
      funext fun rule => congrArg (Scope.covers · scope) (sameScope rule)
    rw [claims, claims, reviseRules, List.filter_map, covered, List.flatMap_map]
    refine List.flatMap_congr fun rule _ => ?_
    rw [← sameClaims, ruleClaims, ruleClaims, named, matched]
  have acted : (fun outcome actor => act (entities.map (reviseRules revise)) index scope outcome
      (reviseRules revise actor)) = act entities index scope := by
    funext outcome actor
    rw [act, claimed]
    rfl
  rw [calculate, calculate, List.foldl_map, acted]

end Suppression

namespace Filter

variable {filter : Filter} {condition : PropertyCondition}

/-- Nothing comes of a filter, wherever it is used. -/
structure Closed (filter : Filter) : Prop where
  admitsNothing : ∀ view index, filter.admits view index = false
  /-- A provider grants no more than what the ids of its grant lead to. -/
  grantsNothing : ∀ (provider : Provider) (ids : List String),
    provider.granted = some ⟨ids, some filter⟩ → ∀ catalog find? index,
      (provider.resolve catalog find? index).granted.map (·.entities) =
        some (Provider.distinctById (ids.filterMap find?))
  /-- The outcome is the same if rules that have the filter lose it. -/
  suppressesNothing : ∀ revise : Suppression.Rule → Suppression.Rule,
    (∀ rule, revise rule = rule ∨ rule.filter = some filter ∧ revise rule = rule.unfiltered) →
      ∀ entities index scope,
        Suppression.calculate (entities.map (Suppression.reviseRules revise)) index scope =
          Suppression.calculate entities index scope
  /-- A condition on entities is judged by a count of zero. -/
  countsNothing : ∀ condition : EntityCondition, condition.filter = some filter →
    ∀ index entities, (Condition.hasEntity condition).holds index (some entities) =
      condition.count.elim false (·.admits 0)
  offersNothing : ∀ (provider : Provider) (selector : Selector),
    provider.selector = some selector → selector.filter = some filter →
      filter.policy = .strict → ∀ catalog find? index,
        (provider.resolve catalog find? index).selector.map (·.eligible) = some []

/-! ## What a filter that admits nothing amounts to -/

section

variable (admitsNothing : ∀ view index, filter.admits view index = false)

include admitsNothing

theorem filter_admits_eq_nil (entities : List Entity) (index : Index) :
    (entities.filter fun entity => filter.admits entity.view index) = [] :=
  List.filter_eq_nil_iff.mpr fun entity _ =>
    Bool.eq_false_iff.mp (admitsNothing entity.view index)

theorem entities_resolveGrant (ids : List String) (catalog : List Entity)
    (find? : String → Option Entity) (index : Index) :
    (Provider.resolveGrant ⟨ids, some filter⟩ catalog find? index).entities =
      Provider.distinctById (ids.filterMap find?) := by
  simp only [Provider.resolveGrant, filter_admits_eq_nil admitsNothing, List.append_nil]

theorem ruleClaims_unfiltered {rule : Suppression.Rule} (filtered : rule.filter = some filter)
    (entities : List Entity) (index : Index) (suppressor : String) :
    Suppression.ruleClaims entities index suppressor rule.unfiltered =
      Suppression.ruleClaims entities index suppressor rule := by
  have unmatched : Suppression.matchedTargets rule suppressor entities index = [] := by
    simp only [Suppression.matchedTargets, filtered, filter_admits_eq_nil admitsNothing,
      List.map_nil, List.filter_nil]
  rw [Suppression.ruleClaims, Suppression.ruleClaims, unmatched]
  rfl

theorem holds_hasEntity {condition : EntityCondition} (filtered : condition.filter = some filter)
    (index : Index) (entities : List Entity) :
    (Condition.hasEntity condition).holds index (some entities) =
      condition.count.elim false (·.admits 0) := by
  have unfit : ∀ entity, condition.fits entity index = false := by
    intro entity
    simp only [EntityCondition.fits, filtered, Option.all_some, admitsNothing, Bool.and_false]
  have none_counts : (entities.countP fun entity => condition.fits entity index) = 0 :=
    List.countP_eq_zero.mpr fun entity _ => Bool.eq_false_iff.mp (unfit entity)
  simp only [Condition.holds, EntityCondition.holds, none_counts]
  cases condition.count <;> rfl

theorem eligible_resolveSelector {selector : Selector} (filtered : selector.filter = some filter)
    (isStrict : filter.policy = .strict) (catalog : List Entity)
    (find? : String → Option Entity) (index : Index) :
    (Provider.resolveSelector selector catalog find? index).eligible = [] := by
  simp only [Provider.resolveSelector, filtered, Option.toList_some, apply, sharedPolicy,
    isStrict, applyWithPolicy_strict, applyWithPolicy_permissive]
  refine List.filter_eq_nil_iff.mpr (List.forall_mem_map.mpr fun entity _ => ?_)
  rw [isMatch_judge, allAdmit, List.all_cons, admitsNothing, Bool.false_and]
  exact Bool.false_ne_true

/-- Whoever goes by a filter asks it about views, so a filter that admits none
is closed. -/
theorem closed_of_admitsNothing : Closed filter where
  admitsNothing := admitsNothing
  grantsNothing := by
    intro provider ids granting catalog find? index
    simp only [Provider.resolve, granting, Option.map_some, entities_resolveGrant admitsNothing]
  suppressesNothing := by
    intro revise revised entities index scope
    refine Suppression.calculate_reviseRules (fun rule => ?_) fun suppressor rule => ?_
    · rcases revised rule with same | ⟨-, dropped⟩
      · rw [same]
      · rw [dropped]
        rfl
    · rcases revised rule with same | ⟨filtered, dropped⟩
      · rw [same]
      · rw [dropped, ruleClaims_unfiltered admitsNothing filtered]
  countsNothing condition filtered := holds_hasEntity admitsNothing filtered
  offersNothing := by
    intro provider selector offering filtered isStrict catalog find? index
    simp only [Provider.resolve, offering, Option.map_some,
      eligible_resolveSelector admitsNothing filtered isStrict]

end

/-! ## Broken queries -/

/-- One condition that never passes closes a filter that wants all to pass. -/
theorem admits_eq_false_of_mem {view : Json} {index : Index} (wantsAll : filter.logic = .all)
    (member : condition ∈ filter.conditions) (fails : ¬ Passes view index condition) :
    filter.admits view index = false := by
  rw [← Bool.not_eq_true, admits_iff, wantsAll]
  exact fun demanded => fails (demanded condition member)

/-- A condition that passes everywhere is as good as absent where all have to
pass. -/
theorem admits_all_of_passes {view : Json} {index : Index} (policy : Policy)
    (before after : List PropertyCondition) (passes : Passes view index condition) :
    admits ⟨.all, policy, before ++ condition :: after⟩ view index =
      admits ⟨.all, policy, before ++ after⟩ view index := by
  rw [Bool.eq_iff_iff, admits_iff, admits_iff]
  simp only [Logic.Demands, List.forall_mem_append, List.forall_mem_cons, passes, true_and]

/-- A broken query closes every filter that wants all its conditions to pass,
whatever the others are, exactly if its operator is not the one that checks
embedded conditions.  If it is, the condition is as good as absent. -/
theorem brokenQuery_closes_iff (condition : PropertyCondition) (broken : condition.HasBrokenQuery) :
    ((∀ filter : Filter, filter.logic = .all → condition ∈ filter.conditions → Closed filter) ↔
        condition.operator ≠ .meetsConditions) ∧
      (condition.operator = .meetsConditions →
        ∀ (policy : Policy) (before after : List PropertyCondition) (view : Json) (index : Index),
          admits ⟨.all, policy, before ++ condition :: after⟩ view index =
            admits ⟨.all, policy, before ++ after⟩ view index) := by
  have passes_iff : ∀ view index,
      Passes view index condition ↔ condition.operator = .meetsConditions :=
    condition.passed_of_broken broken
  refine ⟨⟨fun closes embedded => ?_, fun compares filter wantsAll member => ?_⟩,
    fun embedded policy before after view index =>
      admits_all_of_passes policy before after ((passes_iff view index).mpr embedded)⟩
  · have closed := closes (.strict .all [condition]) rfl List.mem_cons_self
    have emptyAdmits : admits (.strict .all [condition]) .null Index.empty =
        admits (.strict .all []) .null Index.empty :=
      admits_all_of_passes .strict [] [] ((passes_iff _ _).mpr embedded)
    rw [closed.admitsNothing] at emptyAdmits
    cases emptyAdmits
  · refine closed_of_admitsNothing fun view index => ?_
    exact admits_eq_false_of_mem wantsAll member (mt (passes_iff view index).mp compares)

/-- The prerequisites of an entity, by a query that is no query. -/
def unreadable (operator : Operator) : PropertyCondition :=
  .onQuery "prerequisites[?" operator .null

theorem hasBrokenQuery_unreadable (operator : Operator) :
    (unreadable operator).HasBrokenQuery :=
  ⟨rfl, "prerequisites[?", .unexpectedEnd 2, rfl, by with_unfolding_all rfl⟩

/-- Beside a condition that says nothing, "differs" closes a filter, and
embedded conditions do not. -/
theorem brokenQuery_closes_iff_unreadable :
    let typed : PropertyCondition := .onField "entityType" .isIn (.arr [.str "feat"])
    let dodge := Entity.ofType "dodge" (some "feat")
    ((unreadable (.compare .different)).HasBrokenQuery ∧
        Closed (.strict .all [typed, unreadable (.compare .different)])) ∧
      (unreadable .meetsConditions).HasBrokenQuery ∧
        admits (.strict .all [typed, unreadable .meetsConditions]) dodge.view Index.empty =
          true := by
  intro typed dodge
  have compared := hasBrokenQuery_unreadable (.compare .different)
  have embedded := hasBrokenQuery_unreadable .meetsConditions
  refine ⟨⟨compared, ?_⟩, embedded, ?_⟩
  · exact (brokenQuery_closes_iff _ compared).1.mpr (by decide) _ rfl (by simp [Filter.strict])
  · exact ((brokenQuery_closes_iff _ embedded).2 rfl .strict [typed] [] dodge.view Index.empty).trans
      (by decide +kernel)

/-- A query that cannot be parsed opens a filter to every entity. -/
theorem not_closed_of_brokenQuery :
    let filter : Filter := .strict .all [unreadable .meetsConditions]
    (filter.logic = .all ∧ unreadable .meetsConditions ∈ filter.conditions ∧
        (unreadable .meetsConditions).HasBrokenQuery) ∧
      (apply [filter] [Entity.ofType "dodge" (some "feat")] Index.empty).map (·.entity.id) =
        ["dodge"] ∧
      ¬ Closed filter := by
  intro filter
  have broken := hasBrokenQuery_unreadable .meetsConditions
  refine ⟨⟨rfl, List.mem_cons_self, broken⟩, by decide +kernel, fun closed => ?_⟩
  have admitted : filter.admits .null Index.empty = true :=
    admits_all_of_passes .strict [] []
      ((PropertyCondition.passed_of_broken broken .null Index.empty).mpr rfl)
  rw [closed.admitsNothing] at admitted
  cases admitted

end Filter
end CharacterSheet
