import CharacterSheet.Character.Basic

/-!
# Active content

The changes that apply to a character come from many places: the character
itself, its race and classes, feats, items, buffs and entities.  Each of these
is one `Content`, a bundle of changes with a common origin, and
`Character.contents` lists those that are active.  What is switched off, not
equipped or not yet reached by level brings an empty bundle or none.

An entity holds its changes as plain data.  A property that cannot be read as
a list of changes counts as absent, and `Entity.malformed` names it.
-/

namespace CharacterSheet

/-- Changes with a common origin. -/
structure Content where
  origin : Origin
  changes : List Change
  special : List SpecialChange
  contextual : List ContextualChange

namespace Entity

/-- The list that a property holds, empty if the property is absent. -/
def listed? {α : Type} (entity : Entity) (name : String) (decode : Json → Option α) :
    Option (List α) :=
  match entity.get? name with
  | none => some []
  | some value => Json.list? decode value

/-- The changes of an entity, if they can be read. -/
def changes? (entity : Entity) : Option (List Change) :=
  entity.listed? "changes" Change.ofJson?

/-- The definitions that an entity brings, if they can be read. -/
def special? (entity : Entity) : Option (List SpecialChange) :=
  entity.listed? "specialChanges" SpecialChange.ofJson?

/-- The contextual changes of an entity, if they can be read. -/
def contextual? (entity : Entity) : Option (List ContextualChange) :=
  entity.listed? "contextualChanges" ContextualChange.ofJson?

/-- The properties that should hold changes but cannot be read. -/
def malformed (entity : Entity) : List String :=
  (if entity.changes?.isNone then ["changes"] else []) ++
    (if entity.special?.isNone then ["specialChanges"] else []) ++
    (if entity.contextual?.isNone then ["contextualChanges"] else [])

/-- The name of an entity, its id if it has none. -/
def displayName (entity : Entity) : String :=
  match entity.get? "name" with
  | some (.str name) => name
  | _ => entity.id

end Entity

namespace Content

/-- The content of a feature. -/
def ofFeature (type : OriginType) (feature : Feature) : Content :=
  ⟨⟨feature.name, type, feature.id⟩, feature.changes, feature.special, feature.contextual⟩

/-- The content of a race, without its features. -/
def ofRace (race : Race) : Content :=
  ⟨⟨race.name, .race, race.id⟩, race.changes, [], []⟩

/-- The content of an item, some of it only while the item is equipped. -/
def ofItem (item : Item) : Content :=
  ⟨⟨item.name, .item, item.id⟩,
    if item.equipped then item.changes ++ item.equippedChanges else item.changes,
    item.special,
    if item.equipped then item.contextual else []⟩

/-- The content of a buff. -/
def ofBuff (buff : Buff) : Content :=
  ⟨⟨buff.name, buff.origin, buff.id⟩, buff.changes, buff.special, buff.contextual⟩

/-- The content of an entity. -/
def ofEntity (entity : Entity) : Content :=
  ⟨⟨entity.displayName, .entity, entity.id⟩, entity.changes?.getD [], entity.special?.getD [],
    entity.contextual?.getD []⟩

end Content

namespace Character

/-- The changes written on the character itself. -/
def ownContent (character : Character) : Content :=
  ⟨⟨character.name, .base, "base"⟩, character.changes, character.special, []⟩

/-- The content of the race and its features. -/
def raceContents (character : Character) : List Content :=
  match character.race with
  | none => []
  | some race => Content.ofRace race :: race.features.map (Content.ofFeature .raceFeature)

/-- The content of the class features reached by level. -/
def classContents (character : Character) : List Content :=
  (character.classes.flatMap CharacterClass.activeFeatures).map (Content.ofFeature .classFeature)

/-- All active content of a character, with the given entities. -/
def contents (character : Character) (entities : List Entity) : List Content :=
  character.ownContent :: (character.raceContents ++ character.classContents ++
    character.feats.map (Content.ofFeature .feat) ++ character.items.map Content.ofItem ++
    (character.buffs.filter (·.active)).map Content.ofBuff ++ entities.map Content.ofEntity)

end Character

end CharacterSheet
