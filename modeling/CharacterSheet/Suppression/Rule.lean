import CharacterSheet.Filter.Basic

/-!
# Suppression rules

An entity can declare that it takes the place of others, which it names by
their ids or describes by a filter.  The scope of a rule tells whether it
concerns entities that a character has, entities on offer, or both.
-/

namespace CharacterSheet
namespace Suppression

/-- The entities that a rule concerns. -/
inductive Scope where
  | applied
  | selectable
  | all
  deriving DecidableEq, Inhabited

namespace Scope

/-- Whether a rule with the scope acts on a given kind of entities. -/
def covers (scope target : Scope) : Bool :=
  scope = all || scope = target

def toJson : Scope → Json
  | applied => .str "applied"
  | selectable => .str "selectable"
  | all => .str "all"

def ofJson? : Json → Option Scope
  | .str "applied" => some applied
  | .str "selectable" => some selectable
  | .str "all" => some all
  | _ => none

end Scope

/-- A rule by which an entity suppresses others. -/
structure Rule where
  scope : Scope
  ids : List String
  filter : Option Filter
  reason : Option String
  deriving BEq, Inhabited

namespace Rule

/-- The rule that suppresses entities of given ids. -/
def ofIds (scope : Scope) (ids : List String) : Rule :=
  ⟨scope, ids, none, none⟩

/-- The rule that suppresses whatever matches a filter. -/
def ofFilter (scope : Scope) (filter : Filter) : Rule :=
  ⟨scope, [], some filter, none⟩

def toJson (rule : Rule) : Json :=
  .object ([("scope", rule.scope.toJson)] ++ Members.ofItems "ids" .str rule.ids ++
    Members.ofOption "filter" Filter.toJson rule.filter ++
    Members.ofOption "reason" .str rule.reason)

def ofJson? : Json → Option Rule :=
  Json.record? fun members => do
    let scope ← members.required "scope" Scope.ofJson?
    let ids ← members.listed "ids" Json.string?
    let filter ← members.nullable "filter" Filter.ofJson?
    let reason ← members.nullable "reason" Json.string?
    return ⟨scope, ids, filter, reason⟩

end Rule

end Suppression
end CharacterSheet
