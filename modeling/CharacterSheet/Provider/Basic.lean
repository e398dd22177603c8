import CharacterSheet.Entity.Basic

/-!
# Providers of entities

A provider describes how a character comes to have entities.  Some are
granted, by id and by filter; others are chosen by the player from what a
selector offers.  A provider also holds the entities granted and chosen so
far.
-/

namespace CharacterSheet

/-- What a provider grants: entities of given ids and all that match a
filter. -/
structure Grant where
  ids : List String
  filter : Option Filter
  deriving BEq, Inhabited

namespace Grant

def toJson (grant : Grant) : Json :=
  .object (Members.ofItems "ids" .str grant.ids ++
    Members.ofOption "filter" Filter.toJson grant.filter)

/-- The ids of a grant, which go by either of two names but not by both. -/
def ids? (members : Members) : Option (List String) :=
  match members.lookup "specificIds" with
  | none => members.listed "ids" Json.string?
  | some value =>
    match members.lookup "ids" with
    | none => Json.list? Json.string? value
    | some _ => none

def ofJson? : Json → Option Grant :=
  Json.record? fun members => do
    let ids ← ids? members
    let filter ← members.nullable "filter" Filter.ofJson?
    return ⟨ids, filter⟩

end Grant

/-- What a player may choose from, and how many. -/
structure Selector where
  id : String
  name : String
  type : Option String
  /-- The ids that may be chosen; an empty list allows all. -/
  allowed : List String
  filter : Option Filter
  min : Nat
  max : Nat
  deriving BEq, Inhabited

namespace Selector

/-- A selector that sets nothing but the bounds. -/
def unrestricted (id : String) (min max : Nat) : Selector :=
  ⟨id, "", none, [], none, min, max⟩

def toJson (selector : Selector) : Json :=
  .object ([("id", .str selector.id), ("name", .str selector.name)] ++
    Members.ofOption "entityType" .str selector.type ++
    Members.ofItems "entityIds" .str selector.allowed ++
    Members.ofOption "filter" Filter.toJson selector.filter ++
    [("min", .ofNat selector.min), ("max", .ofNat selector.max)])

def ofJson? : Json → Option Selector :=
  Json.record? fun members => do
    let id ← members.required "id" Json.string?
    let name ← members.defaulted "name" Json.string? ""
    let type ← members.nullable "entityType" Json.string?
    let allowed ← members.listed "entityIds" Json.string?
    let filter ← members.nullable "filter" Filter.ofJson?
    let min ← members.required "min" Json.count64?
    let max ← members.required "max" Json.count64?
    return ⟨id, name, type, allowed, filter, min, max⟩

end Selector

/-- The entities that a provider holds. -/
structure Holdings where
  granted : List Entity
  selected : List Entity
  deriving BEq, Inhabited

namespace Holdings

def empty : Holdings := ⟨[], []⟩

def toJson (holdings : Holdings) : Json :=
  .object [("granted", .ofList Entity.toJson holdings.granted),
    ("selected", .ofList Entity.toJson holdings.selected)]

def ofJson? : Json → Option Holdings :=
  Json.record? fun members => do
    let granted ← members.listed "granted" Entity.ofJson?
    let selected ← members.listed "selected" Entity.ofJson?
    return ⟨granted, selected⟩

end Holdings

/-- A source of entities for a character. -/
structure Provider where
  granted : Option Grant
  selector : Option Selector
  entities : Holdings
  deriving BEq, Inhabited

namespace Provider

/-- A provider that only lets the player choose. -/
def ofSelector (selector : Selector) : Provider :=
  ⟨none, some selector, Holdings.empty⟩

/-- A provider that only grants. -/
def ofGrant (grant : Grant) : Provider :=
  ⟨some grant, none, Holdings.empty⟩

def toJson (provider : Provider) : Json :=
  .object (Members.ofOption "granted" Grant.toJson provider.granted ++
    Members.ofOption "selector" Selector.toJson provider.selector ++
    [("entities", provider.entities.toJson)])

def ofJson? : Json → Option Provider :=
  Json.record? fun members => do
    let granted ← members.nullable "granted" Grant.ofJson?
    let selector ← members.nullable "selector" Selector.ofJson?
    let entities ← members.defaulted "entities" Holdings.ofJson? Holdings.empty
    return ⟨granted, selector, entities⟩

end Provider

end CharacterSheet
