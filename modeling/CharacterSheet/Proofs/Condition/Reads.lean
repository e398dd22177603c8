import CharacterSheet.Condition.Evaluation
import CharacterSheet.Proofs.Formula.References

/-!
# What a condition reads

A simple condition reads the keys in its two texts.  A condition on entities
reads through its filter: the key behind the `@` of an expected value, and the
keys of simple conditions that an entity embeds.  Two indexes that agree on
these keys judge the condition in the same way.  Agreement includes which of
the keys are published, because an expected value that is not published lets
no condition pass.
-/

namespace CharacterSheet

namespace Index

/-- Two indexes publish the same under some keys. -/
def AgreeOn (keys : List String) (first second : Index) : Prop :=
  ∀ key ∈ keys, first.get? key = second.get? key

/-- Agreement on what several things read is agreement on what each reads. -/
theorem AgreeOn.of_flatMap {α : Type} {items : List α} {read : α → List String}
    {first second : Index} (agree : AgreeOn (items.flatMap read) first second) {item : α}
    (member : item ∈ items) : AgreeOn (read item) first second :=
  fun key keyMember => agree key (List.mem_flatMap.mpr ⟨item, member, keyMember⟩)

theorem AgreeOn.value_eq {keys : List String} {first second : Index}
    (agree : AgreeOn keys first second) {key : String} (member : key ∈ keys) :
    first.value key = second.value key := by
  rw [value, value, agree key member]

end Index

variable {first second : Index}

namespace SimpleCondition

/-- The keys that the condition refers to. -/
def keys (condition : SimpleCondition) : List String :=
  Formula.keysIn condition.left.toList ++ Formula.keysIn condition.right.toList

theorem holds_congr {condition : SimpleCondition}
    (agree : Index.AgreeOn condition.keys first second) :
    condition.holds first = condition.holds second := by
  have sameLeft := Formula.tryResolve_congr fun key member =>
    agree.value_eq (List.mem_append_left _ member)
  have sameRight := Formula.tryResolve_congr fun key member =>
    agree.value_eq (List.mem_append_right _ member)
  rw [holds, holds, sameLeft, sameRight]

end SimpleCondition

namespace PropertyCondition

/-- The key behind the `@` of the expected value. -/
def expectedKey? (condition : PropertyCondition) : Option String :=
  match condition.expected with
  | .str text =>
    match text.toList with
    | '@' :: key => some (String.ofList key)
    | _ => none
  | _ => none

/-- The keys of a condition that is judged without a view of entities. -/
def keysAlone : Condition → List String
  | .simple condition => condition.keys
  | .hasEntity _ => []

/-- The keys of the conditions that a value lists. -/
def embeddedKeys : Option Json → List String
  | none => []
  | some value =>
    match Json.list? Condition.ofJson? value with
    | some conditions => conditions.flatMap keysAlone
    | none => []

/-- The keys that judging the view of an entity reads. -/
def keys (condition : PropertyCondition) (view : Json) : List String :=
  if condition.operator = .meetsConditions then embeddedKeys (condition.actualValue? view)
  else condition.expectedKey?.toList

theorem expectedValue?_congr {condition : PropertyCondition}
    (agree : Index.AgreeOn condition.expectedKey?.toList first second) :
    condition.expectedValue? first = condition.expectedValue? second := by
  unfold expectedKey? at agree
  unfold expectedValue?
  split
  · rename_i text expected
    rw [expected] at agree
    dsimp only at agree
    split
    · rename_i key spelled
      rw [spelled] at agree
      rw [agree _ (List.mem_singleton.mpr rfl)]
    · rfl
  · rfl

theorem holdsAlone_congr {condition : Condition}
    (agree : Index.AgreeOn (keysAlone condition) first second) :
    holdsAlone first condition = holdsAlone second condition := by
  cases condition with
  | simple condition => exact SimpleCondition.holds_congr agree
  | hasEntity _ => rfl

theorem embeddedHold_congr {value : Option Json}
    (agree : Index.AgreeOn (embeddedKeys value) first second) :
    embeddedHold first value = embeddedHold second value := by
  cases value with
  | none => rfl
  | some value =>
    rw [embeddedKeys] at agree
    rw [embeddedHold, embeddedHold]
    cases listed : Json.list? Condition.ofJson? value with
    | none => rfl
    | some conditions =>
      rw [listed] at agree
      dsimp only at agree ⊢
      rw [Bool.eq_iff_iff, List.all_eq_true, List.all_eq_true]
      refine forall₂_congr fun condition member => ?_
      rw [holdsAlone_congr (agree.of_flatMap member)]

/-- A filter's condition comes out the same on indexes that agree on what it
reads. -/
theorem evaluate_congr {condition : PropertyCondition} {view : Json}
    (agree : Index.AgreeOn (condition.keys view) first second) :
    condition.evaluate view first = condition.evaluate view second := by
  unfold keys at agree
  unfold evaluate
  by_cases embedded : condition.operator = .meetsConditions
  · rw [if_pos embedded] at agree
    dsimp only
    rw [if_pos embedded, if_pos embedded, embeddedHold_congr agree]
  · rw [if_neg embedded] at agree
    dsimp only
    rw [if_neg embedded, if_neg embedded, expectedValue?_congr agree]

end PropertyCondition

namespace Filter

/-- The keys that a filter reads when it looks at an entity. -/
def keys (filter : Filter) (view : Json) : List String :=
  filter.conditions.flatMap fun condition => condition.keys view

theorem admits_congr {filter : Filter} {view : Json}
    (agree : Index.AgreeOn (filter.keys view) first second) :
    filter.admits view first = filter.admits view second := by
  have same : filter.evaluated view first = filter.evaluated view second := by
    apply List.map_congr_left
    intro condition member
    exact PropertyCondition.evaluate_congr (agree.of_flatMap member)
  rw [admits, admits, same]

end Filter

namespace EntityCondition

/-- Whether an entity has the id and the type that the condition asks for. -/
def names (condition : EntityCondition) (entity : Entity) : Bool :=
  condition.id.all (· == entity.id) && condition.type.all fun type => entity.type == some type

/-- The keys that the filter of the condition reads. -/
def keys (condition : EntityCondition) (entities : List Entity) : List String :=
  (entities.filter condition.names).flatMap fun entity =>
    condition.filter.elim [] fun filter => filter.keys entity.view

theorem fits_congr {condition : EntityCondition} {entities : List Entity} {entity : Entity}
    (agree : Index.AgreeOn (condition.keys entities) first second)
    (member : entity ∈ entities) : condition.fits entity first = condition.fits entity second := by
  have split : ∀ index, condition.fits entity index =
      (condition.names entity &&
        condition.filter.all fun filter => filter.admits entity.view index) :=
    fun _ => rfl
  rw [split, split]
  cases named : condition.names entity with
  | false => rfl
  | true =>
    rw [Bool.true_and, Bool.true_and]
    have reads := agree.of_flatMap (List.mem_filter.mpr ⟨member, named⟩)
    cases filtered : condition.filter with
    | none => rfl
    | some filter =>
      rw [filtered] at reads
      exact Filter.admits_congr reads

theorem holds_congr {condition : EntityCondition} {entities : List Entity}
    (agree : Index.AgreeOn (condition.keys entities) first second) :
    condition.holds entities first = condition.holds entities second := by
  have sameCount : (entities.countP fun entity => condition.fits entity first) =
      entities.countP fun entity => condition.fits entity second := by
    apply List.countP_congr
    intro entity member
    rw [fits_congr agree member]
  rw [holds, holds, sameCount]

end EntityCondition

namespace Condition

/-- The keys that judging the condition reads, given the entities that a
character has. -/
def keys (condition : Condition) (entities : List Entity) : List String :=
  match condition with
  | simple condition => condition.keys
  | hasEntity condition => condition.keys entities

theorem holds_congr {condition : Condition} {entities : List Entity}
    (agree : Index.AgreeOn (condition.keys entities) first second) :
    condition.holds first (some entities) = condition.holds second (some entities) := by
  cases condition with
  | simple condition => exact SimpleCondition.holds_congr agree
  | hasEntity condition => exact EntityCondition.holds_congr agree

/-- Conditions hold on both or on neither of two indexes that agree on what the
conditions read. -/
theorem allHold_congr {conditions : List Condition} {entities : List Entity}
    (agree : ∀ condition ∈ conditions, Index.AgreeOn (condition.keys entities) first second) :
    allHold conditions first (some entities) = allHold conditions second (some entities) := by
  rw [allHold, allHold, Bool.eq_iff_iff, List.all_eq_true, List.all_eq_true]
  refine forall₂_congr fun condition member => ?_
  rw [holds_congr (agree condition member)]

end Condition

end CharacterSheet
