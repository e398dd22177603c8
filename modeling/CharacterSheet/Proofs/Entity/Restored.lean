import CharacterSheet.Entity.Basic
import CharacterSheet.Proofs.Change.Restored

/-!
# Rule data is decoded again

The properties of an entity stand among its other members.  They are what is
left when those are taken out, so an entity is restored if none of its
properties has the name of one of them.  With this, all kinds of rule data that
content is made of are restored.
-/

namespace CharacterSheet
namespace Entity

/-- The members of the object that an entity is written as. -/
def members (entity : Entity) : Members :=
  [("id", .str entity.id)] ++ Members.ofOption "entityType" .str entity.type ++
    Members.ofItems "suppression" Suppression.Rule.toJson entity.suppression ++
    entity.properties.toList

variable {entity : Entity}

/-- What is left without the reserved names are the properties. -/
theorem ofList_without_reserved
    (apart : ∀ name ∈ reserved, entity.properties.find? name = none) :
    SortedMap.ofList (Members.without reserved (SortedMap.ofList entity.members).toList) =
      entity.properties := by
  apply SortedMap.ext_find?
  intro name
  rw [Members.find?_without]
  split
  · rename_i taken
    exact (apart name taken).symm
  · rename_i free
    simp only [reserved, List.mem_cons, List.not_mem_nil, or_false, not_or] at free
    rw [← SortedMap.lookup_toList, Members.lookup_stored]
    simp [members, free, Members.last?_toList]

theorem restores (apart : ∀ name ∈ reserved, entity.properties.find? name = none) :
    Restores toJson ofJson? entity := by
  have written : entity.toJson = .object entity.members := rfl
  have noProperty : ∀ name ∈ reserved, Members.last? entity.properties.toList name = none :=
    fun name taken => (Members.last?_toList _ name).trans (apart name taken)
  have holds := entity.members.lookup_stored
  have properties := ofList_without_reserved apart
  refine .object written ?_
  generalize (SortedMap.ofList entity.members).toList = stored at holds properties ⊢
  have id := Members.required_eq_some stored "id" (.text entity.id)
    (by simp [holds, members, noProperty "id" (by decide)])
  have type := Members.nullable_eq_some stored "entityType" entity.type (fun type _ => .text type)
    (by simp [holds, members, noProperty "entityType" (by decide)])
  have suppression := Members.listed_eq_some stored "suppression" entity.suppression
    (fun rule _ => rule.restores)
    (by simp [holds, members, noProperty "suppression" (by decide)])
  simp only [id, type, suppression, properties]
  rfl

end Entity

/-- Rule data is decoded to what it was made of: formulas, filters and rules of
suppression always, the others if all their numbers can be written, and entities
if no property has a reserved name. -/
theorem ruleData_decoded :
    (∀ formula : Formula, Formula.ofJson? formula.toJson = some formula) ∧
    (∀ condition : Condition, condition.Writable →
      Condition.ofJson? condition.toJson = some condition) ∧
    (∀ filter : Filter, Filter.ofJson? filter.toJson = some filter) ∧
    (∀ rule : Suppression.Rule, Suppression.Rule.ofJson? rule.toJson = some rule) ∧
    (∀ change : Change, change.Writable → Change.ofJson? change.toJson = some change) ∧
    (∀ change : ContextualChange, change.Writable →
      ContextualChange.ofJson? change.toJson = some change) ∧
    (∀ special : SpecialChange, special.Writable →
      SpecialChange.ofJson? special.toJson = some special) ∧
    (∀ entity : Entity, (∀ name ∈ Entity.reserved, entity.properties.find? name = none) →
      Entity.ofJson? entity.toJson = some entity) :=
  ⟨fun formula => formula.restores.decoded,
    fun _ writable => (Condition.restores writable).decoded,
    fun filter => filter.restores.decoded,
    fun rule => rule.restores.decoded,
    fun _ writable => (Change.restores writable).decoded,
    fun _ writable => (ContextualChange.restores writable).decoded,
    fun _ writable => (SpecialChange.restores writable).decoded,
    fun _ apart => (Entity.restores apart).decoded⟩

/-- A trait against dwarves, a stance in which points are traded, the known
spells of a class and a form that suppresses another. -/
theorem ruleData_decoded_samples :
    let dwarves : Condition :=
      .hasEntity ⟨none, some "race", some ⟨.any, .permissive,
        [⟨some "name", none, .isIn, .arr [.str "Dwarf", .null]⟩]⟩, some ⟨some 1, some 3⟩⟩
    let bonus : Change :=
      ⟨.attackRolls .melee, .switch ⟨"@level", [⟨"5", .less, "1"⟩], "2"⟩, "MORALE", [dwarves]⟩
    let stance : ContextualChange :=
      ⟨"Stance", .melee, true, true, [⟨"Points", "points", -1.5, 5⟩], [bonus]⟩
    let table := (LevelTable.empty.withRow 2 [4, 0.5]).withRow 10 []
    let tracks : SpecialChange :=
      .spellTracks ⟨"bard", "bard", "bard", "bard.level", some (.total table),
        [⟨"song", none, table⟩]⟩
    let form : Entity :=
      ⟨"bear", some "form", [⟨.all, ["wolf"], none, some "one at a time"⟩],
        SortedMap.empty.insert "changes" (.arr [bonus.toJson])⟩
    Condition.ofJson? dwarves.toJson = some dwarves ∧
      Change.ofJson? bonus.toJson = some bonus ∧
      ContextualChange.ofJson? stance.toJson = some stance ∧
      SpecialChange.ofJson? tracks.toJson = some tracks ∧
      Entity.ofJson? form.toJson = some form := by
  intro dwarves bonus stance table tracks form
  have counted : dwarves.Writable := by
    rintro range ⟨⟩
    exact ⟨by decide, by decide⟩
  have gated : bonus.Writable := by
    intro condition listed
    rw [List.mem_singleton.mp listed]
    exact counted
  have bounded : stance.Writable :=
    { inputs := fun parameter listed => by
        rw [List.mem_singleton.mp listed]
        exact ⟨by decide +kernel, by decide +kernel⟩
      changes := fun inner listed => by
        rw [List.mem_singleton.mp listed]
        exact gated }
  have finite : table.Writable := by
    unfold LevelTable.Writable
    decide +kernel
  have limited : tracks.Writable :=
    { known := fun limit kept => by
        cases kept
        exact finite
      tracks := fun track listed => by
        rw [List.mem_singleton.mp listed]
        exact finite }
  have apart : ∀ name ∈ Entity.reserved, form.properties.find? name = none := by
    decide +kernel
  rcases ruleData_decoded with ⟨-, conditions, -, -, changes, contextual, special, entities⟩
  exact ⟨conditions dwarves counted, changes bonus gated, contextual stance bounded,
    special tracks limited, entities form apart⟩

end CharacterSheet
