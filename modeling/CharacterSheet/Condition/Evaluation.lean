import CharacterSheet.Filter.Evaluation

/-!
# Judging conditions

Conditions are judged by the published values and by the entities that a
character has.  Where no entities are given, as opposed to an empty list of
them, no condition on entities holds.
-/

namespace CharacterSheet

namespace EntityCondition

/-- Whether an entity counts for the condition. -/
def fits (condition : EntityCondition) (entity : Entity) (index : Index) : Bool :=
  condition.id.all (· == entity.id) &&
    condition.type.all (fun type => entity.type == some type) &&
    condition.filter.all fun filter => filter.admits entity.view index

/-- Whether the number of entities that fit is within the bounds; without
bounds one is enough. -/
def holds (condition : EntityCondition) (entities : List Entity) (index : Index) : Bool :=
  let count := entities.countP fun entity => condition.fits entity index
  match condition.count with
  | some range => range.admits count
  | none => 0 < count

end EntityCondition

namespace Condition

/-- Whether a condition holds. -/
def holds (condition : Condition) (index : Index) (entities : Option (List Entity)) : Bool :=
  match condition with
  | simple condition => condition.holds index
  | hasEntity condition =>
    match entities with
    | some entities => condition.holds entities index
    | none => false

/-- Whether all of some conditions hold. -/
def allHold (conditions : List Condition) (index : Index) (entities : Option (List Entity)) :
    Bool :=
  conditions.all fun condition => condition.holds index entities

end Condition

end CharacterSheet
