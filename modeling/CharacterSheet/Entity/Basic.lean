import CharacterSheet.Suppression.Rule

/-!
# Entities

An entity is a piece of content: a feat, a spell, a class feature.  It has an
id, possibly a type, rules by which it suppresses others, and any other
properties as plain data.  Filters look at an entity through its `view`, in
which id and type are properties like all others.
-/

namespace CharacterSheet

/-- A piece of content. -/
structure Entity where
  id : String
  type : Option String
  suppression : List Suppression.Rule
  properties : SortedMap String Json
  deriving BEq, Inhabited

namespace Entity

/-- An entity of a type, without properties. -/
def ofType (id : String) (type : Option String) : Entity :=
  ⟨id, type, [], SortedMap.empty⟩

/-- Set a property. -/
def set (entity : Entity) (name : String) (value : Json) : Entity :=
  { entity with properties := entity.properties.insert name value }

/-- The value of a property. -/
def get? (entity : Entity) (name : String) : Option Json :=
  entity.properties.find? name

/-- The entity as filters see it. -/
def view (entity : Entity) : Json :=
  let identified := entity.properties.insert "id" (.str entity.id)
  match entity.type with
  | none => .obj identified.toList
  | some type => .obj (identified.insert "entityType" (.str type)).toList

def toJson (entity : Entity) : Json :=
  .object ([("id", .str entity.id)] ++ Members.ofOption "entityType" .str entity.type ++
    Members.ofItems "suppression" Suppression.Rule.toJson entity.suppression ++
    entity.properties.toList)

/-- The members of an entity that are not properties. -/
def reserved : List String := ["id", "entityType", "suppression"]

def ofJson? : Json → Option Entity :=
  Json.record? fun members => do
    let id ← members.required "id" Json.string?
    let type ← members.nullable "entityType" Json.string?
    let suppression ← members.listed "suppression" Suppression.Rule.ofJson?
    return ⟨id, type, suppression, SortedMap.ofList (members.without reserved)⟩

end Entity

end CharacterSheet
