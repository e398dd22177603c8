import CharacterSheet.Character.Content
import CharacterSheet.Error

/-!
# Compiled changes

Before anything is calculated, the changes of all active content are gathered
in three lists: changes with their origins, definitions, and contextual
changes with their origins.  The definitions of spell tracks give rise to
further custom variables, one for each number in the rows of the class level,
so that changes can raise these numbers.
-/

namespace CharacterSheet

/-- The changes of all active content. -/
structure Compilation where
  changes : List CompiledChange
  special : List SpecialChange
  contextual : List CompiledContextual
  /-- The entity properties that could not be read. -/
  warnings : List SheetWarning

namespace Compilation

/-- The changes of some content. -/
def ofContents (contents : List Content) (warnings : List SheetWarning) : Compilation where
  changes := contents.flatMap fun content => content.changes.map (⟨·, content.origin⟩)
  special := contents.flatMap (·.special)
  contextual := contents.flatMap fun content => content.contextual.map (⟨·, content.origin⟩)
  warnings := warnings

/-- The warnings about the unreadable properties of an entity.  They name the
properties and do not say what is wrong with the values. -/
def entityWarnings (entity : Entity) : List SheetWarning :=
  entity.malformed.map (.invalidEntityData entity.id)

/-- The changes of a character to which some entities are applied. -/
def ofCharacter (character : Character) (entities : List Entity) : Compilation :=
  ofContents (character.contents entities) (entities.flatMap entityWarnings)

/-- The spell tracks that are defined. -/
def spellTracks (compiled : Compilation) : List SpellTracks :=
  compiled.special.filterMap SpecialChange.spellTracks?

/-- The resources that are defined. -/
def resources (compiled : Compilation) : List Resource :=
  compiled.special.filterMap SpecialChange.resource?

/-- The custom variables that are defined: those of definitions of their own,
then those of the spell tracks of classes in which the character has
levels. -/
def definitions (compiled : Compilation) (character : Character) : List VariableDefinition :=
  compiled.special.filterMap SpecialChange.definition? ++
    compiled.spellTracks.flatMap fun tracks =>
      match character.classLevel tracks.classId with
      | 0 => []
      | level => tracks.definitions level

end Compilation

end CharacterSheet
