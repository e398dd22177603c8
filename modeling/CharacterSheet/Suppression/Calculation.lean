import CharacterSheet.Filter.Evaluation

/-!
# Which entities are suppressed

Entities act in the order they are listed, and the first to claim a target
suppresses it.  An entity that is suppressed when its turn comes does not act,
so suppression does not reach further than one step along a chain.
-/

namespace CharacterSheet
namespace Suppression

/-- How a rule found a target. -/
inductive Method where
  | byId
  | byFilter
  deriving DecidableEq, Inhabited

namespace Method

def toJson : Method → Json
  | byId => .str "id"
  | byFilter => .str "filter"

end Method

/-- By what an entity is suppressed, and why. -/
structure Record where
  suppressor : String
  method : Method
  reason : Option String
  deriving DecidableEq, Inhabited

namespace Record

def toJson (entry : Record) : Json :=
  .object ([("suppressedById", .str entry.suppressor), ("method", entry.method.toJson)] ++
    Members.ofOption "reason" .str entry.reason)

end Record

/-- The suppressed entities, by id. -/
abbrev Outcome := SortedMap String Record

/-- The listed entities that a rule names, other than the one it belongs to. -/
def namedTargets (rule : Rule) (suppressor : String) (entities : List Entity) : List String :=
  rule.ids.filter fun target =>
    target != suppressor && entities.any fun entity => entity.id == target

/-- The listed entities that match the filter of a rule, other than the one it
belongs to. -/
def matchedTargets (rule : Rule) (suppressor : String) (entities : List Entity)
    (index : Index) : List String :=
  match rule.filter with
  | none => []
  | some filter =>
    ((entities.filter fun entity => filter.admits entity.view index).map (·.id)).filter
      (· != suppressor)

/-- What one rule of an entity claims, in order: first by id, then by
filter. -/
def ruleClaims (entities : List Entity) (index : Index) (suppressor : String) (rule : Rule) :
    List (String × Record) :=
  (namedTargets rule suppressor entities).map (·, ⟨suppressor, .byId, rule.reason⟩) ++
    (matchedTargets rule suppressor entities index).map (·, ⟨suppressor, .byFilter, rule.reason⟩)

/-- What an entity claims by its rules in scope. -/
def claims (entities : List Entity) (index : Index) (scope : Scope) (entity : Entity) :
    List (String × Record) :=
  (entity.suppression.filter fun rule => rule.scope.covers scope).flatMap
    (ruleClaims entities index entity.id)

/-- Record a claim unless the target is suppressed already. -/
def claim (outcome : Outcome) (entry : String × Record) : Outcome :=
  if outcome.contains entry.1 then outcome else outcome.insert entry.1 entry.2

/-- Let an entity act, unless it is suppressed. -/
def act (entities : List Entity) (index : Index) (scope : Scope) (outcome : Outcome)
    (entity : Entity) : Outcome :=
  if outcome.contains entity.id then outcome
  else (claims entities index scope entity).foldl claim outcome

/-- The entities that are suppressed in a scope. -/
def calculate (entities : List Entity) (index : Index) (scope : Scope) : Outcome :=
  entities.foldl (act entities index scope) SortedMap.empty

/-- The entities that are left. -/
def remaining (entities : List Entity) (outcome : Outcome) : List Entity :=
  entities.filter fun entity => !outcome.contains entity.id

end Suppression
end CharacterSheet
