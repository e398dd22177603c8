import CharacterSheet.Change.Compilation
import CharacterSheet.Proofs.SortedMap

/-!
# Properties that cannot be read

An entity holds its changes as data, in three properties.  Each of them is read
as a whole: one item that is no change spoils the list that it stands in, even
if it is the last.  A spoiled property is as good as absent.  Nothing of it is
compiled, the other properties and the other entities bring what they bring, and
there is one warning.
-/

namespace CharacterSheet

namespace Json

variable {α : Type} {decode : Json → Option α}

theorem isSome_mapM (items : List Json) :
    (items.mapM decode).isSome = items.all fun item => (decode item).isSome := by
  induction items with
  | nil => rfl
  | cons item rest inductionHypothesis =>
    rw [List.mapM_cons, List.all_cons, ← inductionHypothesis]
    cases decode item with
    | none => rfl
    | some value => cases rest.mapM decode <;> rfl

end Json

/-- The properties of an entity that hold changes. -/
inductive ChangeProperty where
  | changes
  | special
  | contextual

namespace ChangeProperty

/-- All of them, in the order in which they are read. -/
def all : List ChangeProperty := [changes, special, contextual]

def name : ChangeProperty → String
  | changes => "changes"
  | special => "specialChanges"
  | contextual => "contextualChanges"

theorem mem_all (property : ChangeProperty) : property ∈ all := by
  cases property <;> simp [all]

theorem name_injective : Function.Injective name := by
  intro first second same
  cases first <;> cases second <;> first | rfl | exact absurd same (by decide)

/-- Whether an item can stand in the property. -/
def accepts (property : ChangeProperty) (item : Json) : Bool :=
  match property with
  | changes => (Change.ofJson? item).isSome
  | special => (SpecialChange.ofJson? item).isSome
  | contextual => (ContextualChange.ofJson? item).isSome

/-- Whether the property can have a value: an array, all of whose items can
stand in it. -/
def isReadable (property : ChangeProperty) : Json → Bool
  | .arr items => items.all property.accepts
  | _ => false

end ChangeProperty

namespace Entity

/-- Whether an entity has a property, with a value that cannot be read. -/
def isSpoiled (entity : Entity) (property : ChangeProperty) : Bool :=
  (entity.get? property.name).any fun value => !property.isReadable value

/-- The spoiled properties of an entity, in the order in which they are read. -/
def spoiled (entity : Entity) : List ChangeProperty :=
  ChangeProperty.all.filter entity.isSpoiled

/-- The entity without its spoiled properties. -/
def unspoiled (entity : Entity) : Entity :=
  { entity with
    properties := (entity.spoiled.map (·.name)).foldl SortedMap.erase entity.properties }

/-! ## Reading a property -/

/-- What reads the items of a property is what accepts them. -/
def ReadBy {α : Type} (property : ChangeProperty) (decode : Json → Option α) : Prop :=
  ∀ item, property.accepts item = (decode item).isSome

section Reading

variable {α : Type} {property : ChangeProperty} {decode : Json → Option α}
  (readBy : ReadBy property decode) (entity : Entity)

include readBy

theorem isReadable_eq (value : Json) :
    property.isReadable value = (Json.list? decode value).isSome := by
  cases value with
  | arr items =>
    rw [ChangeProperty.isReadable, Json.list?, Json.isSome_mapM]
    exact congrArg items.all (funext readBy)
  | _ => rfl

theorem isNone_listed? :
    (entity.listed? property.name decode).isNone = entity.isSpoiled property := by
  rw [listed?, isSpoiled]
  cases entity.get? property.name with
  | none => rfl
  | some value =>
    rw [Option.any_some, isReadable_eq readBy, Option.not_isSome]

end Reading

theorem readBy_changes : ReadBy .changes Change.ofJson? := fun _ => rfl

theorem readBy_special : ReadBy .special SpecialChange.ofJson? := fun _ => rfl

theorem readBy_contextual : ReadBy .contextual ContextualChange.ofJson? := fun _ => rfl

/-- What an entity reports are its spoiled properties. -/
theorem malformed_eq (entity : Entity) : entity.malformed = entity.spoiled.map (·.name) := by
  have changes : entity.changes?.isNone = entity.isSpoiled .changes :=
    isNone_listed? readBy_changes entity
  have special : entity.special?.isNone = entity.isSpoiled .special :=
    isNone_listed? readBy_special entity
  have contextual : entity.contextual?.isNone = entity.isSpoiled .contextual :=
    isNone_listed? readBy_contextual entity
  rw [malformed, changes, special, contextual, spoiled, ChangeProperty.all, List.filter_cons,
    List.filter_cons, List.filter_cons, List.filter_nil]
  cases entity.isSpoiled .changes <;> cases entity.isSpoiled .special <;>
    cases entity.isSpoiled .contextual <;> rfl

/-! ## Without the spoiled properties -/

theorem name_mem_spoiled_iff {entity : Entity} {property : ChangeProperty} :
    property.name ∈ entity.spoiled.map (·.name) ↔ entity.isSpoiled property = true := by
  rw [List.mem_map_of_injective ChangeProperty.name_injective, spoiled, List.mem_filter,
    and_iff_right property.mem_all]

theorem get?_unspoiled (entity : Entity) (name : String) :
    entity.unspoiled.get? name =
      if name ∈ entity.spoiled.map (·.name) then none else entity.get? name :=
  SortedMap.find?_foldl_erase _ _ _

theorem get?_unspoiled_name (entity : Entity) (property : ChangeProperty) :
    entity.unspoiled.get? property.name =
      if entity.isSpoiled property then none else entity.get? property.name := by
  rw [get?_unspoiled]
  simp only [name_mem_spoiled_iff]

theorem spoiled_unspoiled (entity : Entity) : entity.unspoiled.spoiled = [] := by
  rw [spoiled, List.filter_eq_nil_iff]
  intro property _
  rw [isSpoiled, get?_unspoiled_name]
  cases kept : entity.isSpoiled property with
  | true => simp
  | false =>
    rw [isSpoiled] at kept
    simpa using kept

theorem displayName_unspoiled (entity : Entity) :
    entity.unspoiled.displayName = entity.displayName := by
  have other : "name" ∉ entity.spoiled.map (·.name) := by
    intro listed
    rcases List.mem_map.mp listed with ⟨property, -, same⟩
    cases property <;> exact absurd same (by decide)
  rw [displayName, get?_unspoiled, if_neg other]
  rfl

/-- A property that cannot be read brings as much as one that is not there. -/
theorem getD_listed?_unspoiled {α : Type} {property : ChangeProperty} {decode : Json → Option α}
    (readBy : ReadBy property decode) (entity : Entity) :
    (entity.unspoiled.listed? property.name decode).getD [] =
      (entity.listed? property.name decode).getD [] := by
  have unread := isNone_listed? readBy entity
  cases spoils : entity.isSpoiled property with
  | true =>
    rw [spoils, Option.isNone_iff_eq_none] at unread
    rw [unread, listed?, get?_unspoiled_name, spoils]
    rfl
  | false =>
    rw [listed?, get?_unspoiled_name, spoils]
    rfl

theorem ofEntity_unspoiled (entity : Entity) :
    Content.ofEntity entity.unspoiled = Content.ofEntity entity := by
  have changes : entity.unspoiled.changes?.getD [] = entity.changes?.getD [] :=
    getD_listed?_unspoiled readBy_changes entity
  have special : entity.unspoiled.special?.getD [] = entity.special?.getD [] :=
    getD_listed?_unspoiled readBy_special entity
  have contextual : entity.unspoiled.contextual?.getD [] = entity.contextual?.getD [] :=
    getD_listed?_unspoiled readBy_contextual entity
  rw [Content.ofEntity, displayName_unspoiled, changes, special, contextual]
  rfl

end Entity

namespace Compilation

theorem warnings_ofCharacter (character : Character) (entities : List Entity) :
    (ofCharacter character entities).warnings = entities.flatMap fun entity =>
      entity.spoiled.map fun property => .invalidEntityData entity.id property.name := by
  refine List.flatMap_congr fun entity _ => ?_
  rw [entityWarnings, Entity.malformed_eq, List.map_map]
  rfl

theorem ofCharacter_unspoiled (character : Character) (entities : List Entity) :
    ofCharacter character (entities.map Entity.unspoiled) =
      { ofCharacter character entities with warnings := [] } := by
  have contents : character.contents (entities.map Entity.unspoiled) =
      character.contents entities := by
    have same : Content.ofEntity ∘ Entity.unspoiled = Content.ofEntity :=
      funext Entity.ofEntity_unspoiled
    rw [Character.contents, List.map_map, same]
    rfl
  have silent : (entities.map Entity.unspoiled).flatMap entityWarnings = [] := by
    refine List.flatMap_eq_nil_iff.mpr (List.forall_mem_map.mpr fun entity _ => ?_)
    rw [entityWarnings, Entity.malformed_eq, Entity.spoiled_unspoiled]
    rfl
  rw [ofCharacter, contents, silent]
  rfl

/-- With the properties that cannot be read taken out of all entities, the same
is compiled in the same order, and nothing is reported.  With them there is one
warning for each, entity by entity. -/
theorem unreadable_ignored (character : Character) (entities : List Entity) :
    let compiled := ofCharacter character entities
    let cleaned := ofCharacter character (entities.map Entity.unspoiled)
    (cleaned.changes = compiled.changes ∧ cleaned.special = compiled.special ∧
      cleaned.contextual = compiled.contextual) ∧
    (cleaned.definitions character = compiled.definitions character ∧
      cleaned.spellTracks = compiled.spellTracks ∧ cleaned.resources = compiled.resources) ∧
    compiled.warnings = (entities.flatMap fun entity =>
      entity.spoiled.map fun property => .invalidEntityData entity.id property.name) ∧
    cleaned.warnings = [] := by
  intro compiled cleaned
  have same : cleaned = { compiled with warnings := [] } := ofCharacter_unspoiled character entities
  rw [same]
  exact ⟨⟨rfl, rfl, rfl⟩, ⟨rfl, rfl, rfl⟩, warnings_ofCharacter character entities, rfl⟩

end Compilation
end CharacterSheet
