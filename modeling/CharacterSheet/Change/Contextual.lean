import CharacterSheet.Change.Basic

/-!
# Contextual changes and origins

A contextual change groups changes that apply only within an attack.  A
mandatory one applies to every matching attack; all others are offered to the
player, who may switch them on or set their variables.

An origin tells where a change comes from.  A compiled change is a change with
its origin, ready to contribute to a statistic.
-/

namespace CharacterSheet

/-- A value that the player supplies to a contextual change. -/
structure ContextualVariable where
  name : String
  identifier : String
  min : Float
  max : Float
  deriving BEq

namespace ContextualVariable

def toJson (parameter : ContextualVariable) : Json :=
  .object [("name", .str parameter.name), ("identifier", .str parameter.identifier),
    ("min", .ofFloat parameter.min), ("max", .ofFloat parameter.max)]

def ofJson? : Json → Option ContextualVariable :=
  Json.record? fun members => do
    let name ← members.required "name" Json.string?
    let identifier ← members.required "identifier" Json.string?
    let min ← members.required "min" Json.float?
    let max ← members.required "max" Json.float?
    return ⟨name, identifier, min, max⟩

end ContextualVariable

/-- Changes that apply only within an attack. -/
structure ContextualChange where
  name : String
  appliesTo : AttackKind
  isOptional : Bool
  available : Bool
  inputs : List ContextualVariable
  changes : List Change
  deriving BEq

namespace ContextualChange

/-- A mandatory contextual change that changes nothing yet. -/
def of (name : String) (appliesTo : AttackKind) : ContextualChange :=
  ⟨name, appliesTo, false, true, [], []⟩

/-- Whether the change applies without anything from the player. -/
def isMandatory (change : ContextualChange) : Bool :=
  change.available && !change.isOptional && change.inputs.isEmpty

/-- Whether the change is offered to the player. -/
def isOffered (change : ContextualChange) : Bool :=
  change.available && !change.isMandatory

/-- The only situation that contextual changes belong to, as data. -/
def situation? : Json → Option Unit
  | .str "attack" => some ()
  | _ => none

def toJson (change : ContextualChange) : Json :=
  .object ([("name", .str change.name), ("type", .str "attack"),
      ("appliesTo", change.appliesTo.toJson), ("optional", .bool change.isOptional),
      ("available", .bool change.available)] ++
    Members.ofItems "variables" ContextualVariable.toJson change.inputs ++
    [("changes", .ofList Change.toJson change.changes)])

def ofJson? : Json → Option ContextualChange :=
  Json.record? fun members => do
    let name ← members.required "name" Json.string?
    members.defaulted "type" situation? ()
    let appliesTo ← members.defaulted "appliesTo" AttackKind.ofJson? .all
    let isOptional ← members.defaulted "optional" Json.bool? false
    let available ← members.defaulted "available" Json.bool? true
    let inputs ← members.listed "variables" ContextualVariable.ofJson?
    let changes ← members.listed "changes" Change.ofJson?
    return ⟨name, appliesTo, isOptional, available, inputs, changes⟩

end ContextualChange

/-- What kind of thing a change comes from. -/
inductive OriginType where
  | item
  | feat
  | classFeature
  | raceFeature
  | spell
  | potion
  | environment
  | other
  | base
  | specialFeature
  | entity
  | buff
  | race
  deriving DecidableEq, Inhabited

namespace OriginType

def all : List OriginType :=
  [item, feat, classFeature, raceFeature, spell, potion, environment, other, base, specialFeature,
    entity, buff, race]

def name : OriginType → String
  | item => "item"
  | feat => "feat"
  | classFeature => "classFeature"
  | raceFeature => "raceFeature"
  | spell => "spell"
  | potion => "potion"
  | environment => "environment"
  | other => "other"
  | base => "base"
  | specialFeature => "specialFeature"
  | entity => "entity"
  | buff => "buff"
  | race => "race"

def toJson (type : OriginType) : Json := .str type.name

def ofJson? : Json → Option OriginType := Json.choice? all name

end OriginType

/-- Where a change comes from. -/
structure Origin where
  name : String
  type : OriginType
  id : String
  deriving DecidableEq, Inhabited

namespace Origin

def toJson (origin : Origin) : Json :=
  .object [("name", .str origin.name), ("originType", origin.type.toJson),
    ("originId", .str origin.id)]

def ofJson? : Json → Option Origin :=
  Json.record? fun members => do
    let name ← members.required "name" Json.string?
    let type ← members.required "originType" OriginType.ofJson?
    let id ← members.required "originId" Json.string?
    return ⟨name, type, id⟩

end Origin

/-- A change with its origin. -/
structure CompiledChange where
  change : Change
  origin : Origin
  deriving BEq

namespace CompiledChange

/-- The contribution that the change makes. -/
def source (compiled : CompiledChange) (index : Index) : Source Float :=
  Source.of (compiled.change.formula.evaluate index) compiled.change.bonusType
    compiled.origin.name compiled.origin.id

def toJson (compiled : CompiledChange) : Json :=
  .object [("change", compiled.change.toJson), ("origin", compiled.origin.toJson)]

end CompiledChange

/-- A contextual change with its origin. -/
structure CompiledContextual where
  contextual : ContextualChange
  origin : Origin
  deriving BEq

namespace CompiledContextual

/-- The changes within, each named after the contextual change. -/
def changes (compiled : CompiledContextual) : List CompiledChange :=
  compiled.contextual.changes.map fun change =>
    ⟨change, { compiled.origin with name := compiled.contextual.name }⟩

def toJson (compiled : CompiledContextual) : Json :=
  .object [("contextual", compiled.contextual.toJson), ("origin", compiled.origin.toJson)]

end CompiledContextual

end CharacterSheet
