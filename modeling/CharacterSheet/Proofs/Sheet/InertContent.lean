import CharacterSheet.Proofs.Phase.Alike
import CharacterSheet.Proofs.Sheet.Publishing

/-!
# Content that no sheet shows

Much of what a character holds is there for another time: buffs that are
switched off, what an item does once it is equipped, features and hit dice of
levels to come, and the changes that a contextual change would make if the
player chose it.  Pruning a character takes all of this away.  What is left of
it is compiled to the same changes, except within contextual changes that do
not apply by themselves, and of these an attack shows the names only.  So a
pruned character has the same sheet, and two characters that prune to the same
one cannot be told apart by their sheets.
-/

namespace CharacterSheet

/-- What is kept is kept again after a change that has no part in it. -/
theorem filter_map_filter {α : Type} {keeps : α → Bool} (change : α → α)
    (apart : ∀ item, keeps (change item) = keeps item) (items : List α) :
    ((items.filter keeps).map change).filter keeps = (items.filter keeps).map change := by
  apply List.filter_eq_self.mpr
  intro changed member
  rcases List.mem_map.mp member with ⟨item, kept, rfl⟩
  rw [apart]
  exact (List.mem_filter.mp kept).2

/-! ## Pruning -/

namespace ContextualChange

/-- The contextual change without what it changes, unless it applies by
itself. -/
def pruned (change : ContextualChange) : ContextualChange :=
  if change.isMandatory then change else { change with changes := [] }

theorem pruned_of_isMandatory {change : ContextualChange} (mandatory : change.isMandatory = true) :
    change.pruned = change :=
  if_pos mandatory

@[simp]
theorem name_pruned (change : ContextualChange) : change.pruned.name = change.name := by
  unfold pruned
  split <;> rfl

@[simp]
theorem appliesTo_pruned (change : ContextualChange) :
    change.pruned.appliesTo = change.appliesTo := by
  unfold pruned
  split <;> rfl

@[simp]
theorem isMandatory_pruned (change : ContextualChange) :
    change.pruned.isMandatory = change.isMandatory := by
  unfold pruned
  split <;> rfl

@[simp]
theorem isOffered_pruned (change : ContextualChange) :
    change.pruned.isOffered = change.isOffered := by
  unfold pruned
  split <;> rfl

@[simp]
theorem pruned_pruned (change : ContextualChange) : change.pruned.pruned = change.pruned := by
  by_cases mandatory : change.isMandatory = true
  · rw [pruned_of_isMandatory mandatory, pruned_of_isMandatory mandatory]
  · have otherwise : ¬ change.pruned.isMandatory = true := by
      rwa [isMandatory_pruned]
    rw [pruned, if_neg otherwise, pruned, if_neg mandatory]

end ContextualChange

namespace Feature

def pruned (feature : Feature) : Feature :=
  { feature with contextual := feature.contextual.map ContextualChange.pruned }

end Feature

namespace ClassFeature

def pruned (entry : ClassFeature) : ClassFeature :=
  { entry with feature := entry.feature.pruned }

end ClassFeature

namespace CharacterClass

/-- The class without hit dice and features of levels that are not reached. -/
def pruned (taken : CharacterClass) : CharacterClass :=
  { taken with
    hitDice := taken.hitDice.take taken.level
    features :=
      (taken.features.filter fun entry => entry.level ≤ taken.level).map ClassFeature.pruned }

theorem activeFeatures_pruned (taken : CharacterClass) :
    taken.pruned.activeFeatures = taken.activeFeatures.map Feature.pruned := by
  have reached : taken.pruned.features.filter (fun entry => entry.level ≤ taken.level) =
      (taken.features.filter fun entry => entry.level ≤ taken.level).map ClassFeature.pruned :=
    filter_map_filter ClassFeature.pruned (fun _ => rfl) taken.features
  have active : taken.pruned.activeFeatures =
      (taken.pruned.features.filter fun entry => entry.level ≤ taken.level).map (·.feature) :=
    rfl
  rw [active, reached, activeFeatures, List.map_map, List.map_map]
  rfl

theorem hitDice_pruned (taken : CharacterClass) :
    Calculation.hitDice taken.pruned = Calculation.hitDice taken := by
  rw [Calculation.hitDice, Calculation.hitDice, pruned, List.take_take, Nat.min_self]

end CharacterClass

namespace Race

def pruned (race : Race) : Race :=
  { race with features := race.features.map Feature.pruned }

end Race

namespace Item

/-- The item without what counts only while it is equipped, unless it is. -/
def pruned (item : Item) : Item :=
  if item.equipped then { item with contextual := item.contextual.map ContextualChange.pruned }
  else { item with equippedChanges := [], contextual := [], kind := .gear }

theorem equipped_pruned (item : Item) : item.pruned.equipped = item.equipped := by
  unfold pruned
  split <;> rfl

theorem pruned_of_equipped {item : Item} (equipped : item.equipped = true) :
    item.pruned = { item with contextual := item.contextual.map ContextualChange.pruned } :=
  if_pos equipped

end Item

namespace Buff

def pruned (buff : Buff) : Buff :=
  { buff with contextual := buff.contextual.map ContextualChange.pruned }

end Buff

namespace Character

/-- The character without all that is inert: buffs that are switched off, what
items that are not equipped would do, features and hit dice of levels that are
not reached, and what contextual changes would change that do not apply by
themselves. -/
def pruned (character : Character) : Character :=
  { character with
    classes := character.classes.map CharacterClass.pruned
    race := character.race.map Race.pruned
    items := character.items.map Item.pruned
    buffs := (character.buffs.filter (·.active)).map Buff.pruned
    feats := character.feats.map Feature.pruned }

end Character

/-! ## Compiled changes -/

namespace Content

def pruned (content : Content) : Content :=
  { content with contextual := content.contextual.map ContextualChange.pruned }

/-- An item that is not equipped brings what it would bring in any case. -/
theorem pruned_ofItem_pruned (item : Item) :
    (ofItem item.pruned).pruned = (ofItem item).pruned := by
  by_cases equipped : item.equipped = true <;> simp [Item.pruned, ofItem, pruned, equipped]

theorem pruned_ofFeature_pruned (type : OriginType) (feature : Feature) :
    (ofFeature type feature.pruned).pruned = (ofFeature type feature).pruned := by
  simp [Feature.pruned, ofFeature, pruned]

theorem pruned_ofBuff_pruned (buff : Buff) :
    (ofBuff buff.pruned).pruned = (ofBuff buff).pruned := by
  simp [Buff.pruned, ofBuff, pruned]

theorem map_pruned_ofFeature (type : OriginType) (features : List Feature) :
    ((features.map Feature.pruned).map (ofFeature type)).map pruned =
      (features.map (ofFeature type)).map pruned := by
  rw [List.map_map, List.map_map, List.map_map]
  exact List.map_congr_left fun feature _ => pruned_ofFeature_pruned type feature

end Content

namespace Character

theorem raceContents_pruned (character : Character) :
    character.pruned.raceContents.map Content.pruned =
      character.raceContents.map Content.pruned := by
  unfold raceContents pruned
  cases character.race with
  | none => rfl
  | some race =>
    exact congrArg ((Content.ofRace race).pruned :: ·)
      (Content.map_pruned_ofFeature .raceFeature race.features)

theorem classContents_pruned (character : Character) :
    character.pruned.classContents.map Content.pruned =
      character.classContents.map Content.pruned := by
  have active : character.pruned.classes.flatMap CharacterClass.activeFeatures =
      (character.classes.flatMap CharacterClass.activeFeatures).map Feature.pruned := by
    rw [pruned, List.flatMap_map, List.map_flatMap]
    simp only [CharacterClass.activeFeatures_pruned]
  rw [classContents, classContents, active, Content.map_pruned_ofFeature]

theorem contents_pruned (character : Character) (entities : List Entity) :
    (character.pruned.contents entities).map Content.pruned =
      (character.contents entities).map Content.pruned := by
  have items : (character.pruned.items.map Content.ofItem).map Content.pruned =
      (character.items.map Content.ofItem).map Content.pruned := by
    rw [pruned, List.map_map, List.map_map, List.map_map]
    exact List.map_congr_left fun item _ => Content.pruned_ofItem_pruned item
  have active : character.pruned.buffs.filter (·.active) =
      (character.buffs.filter (·.active)).map Buff.pruned :=
    filter_map_filter Buff.pruned (fun _ => rfl) character.buffs
  have buffs :
      ((character.pruned.buffs.filter (·.active)).map Content.ofBuff).map Content.pruned =
        ((character.buffs.filter (·.active)).map Content.ofBuff).map Content.pruned := by
    rw [active, List.map_map, List.map_map, List.map_map]
    exact List.map_congr_left fun buff _ => Content.pruned_ofBuff_pruned buff
  have feats : (character.pruned.feats.map (Content.ofFeature .feat)).map Content.pruned =
      (character.feats.map (Content.ofFeature .feat)).map Content.pruned :=
    Content.map_pruned_ofFeature .feat character.feats
  rw [contents, contents]
  simp only [List.map_cons, List.map_append, raceContents_pruned, classContents_pruned, items,
    buffs, feats]
  rfl

end Character

namespace CompiledContextual

def pruned (compiled : CompiledContextual) : CompiledContextual :=
  { compiled with contextual := compiled.contextual.pruned }

end CompiledContextual

namespace Compilation

def pruned (compiled : Compilation) : Compilation :=
  { compiled with contextual := compiled.contextual.map CompiledContextual.pruned }

theorem ofContents_map_pruned (contents : List Content) (warnings : List SheetWarning) :
    ofContents (contents.map Content.pruned) warnings = (ofContents contents warnings).pruned := by
  rw [ofContents, ofContents, pruned, List.flatMap_map, List.flatMap_map, List.flatMap_map]
  dsimp only
  rw [List.map_flatMap]
  simp only [Content.pruned, List.map_map]
  rfl

/-- Inert content is compiled to nothing but changes within contextual changes
that do not apply by themselves. -/
theorem pruned_ofCharacter_pruned (character : Character) (entities : List Entity) :
    (ofCharacter character.pruned entities).pruned = (ofCharacter character entities).pruned := by
  rw [ofCharacter, ofCharacter, ← ofContents_map_pruned, ← ofContents_map_pruned,
    Character.contents_pruned]

end Compilation

/-! ## The phases -/

namespace Calculation

/-- Contextual changes that apply by themselves are not pruned. -/
theorem mandatory_eq (calculation : Calculation) (kind : AttackKind) :
    calculation.mandatory kind =
      calculation.compiled.pruned.contextual.filter fun compiled =>
        compiled.contextual.isMandatory && compiled.contextual.appliesTo.includes kind := by
  have kept : ∀ compiled ∈ calculation.mandatory kind, compiled.pruned = compiled := by
    intro compiled member
    have applies := (Bool.and_eq_true_iff.mp (List.mem_filter.mp member).2).1
    rw [CompiledContextual.pruned, ContextualChange.pruned_of_isMandatory applies]
  have selected : ((fun compiled : CompiledContextual =>
      compiled.contextual.isMandatory && compiled.contextual.appliesTo.includes kind) ∘
        CompiledContextual.pruned) = fun compiled =>
          compiled.contextual.isMandatory && compiled.contextual.appliesTo.includes kind := by
    funext compiled
    simp [CompiledContextual.pruned]
  rw [Compilation.pruned, List.filter_map, selected]
  exact (List.map_congr_left kept).trans (List.map_id _) |>.symm

/-- Of contextual changes that are offered only the names are shown. -/
theorem offered_eq (calculation : Calculation) (kind : AttackKind) :
    calculation.offered kind =
      (calculation.compiled.pruned.contextual.filter fun compiled =>
        compiled.contextual.isOffered && compiled.contextual.appliesTo.includes kind).map
          (·.contextual.name) := by
  simp [offered, Compilation.pruned, CompiledContextual.pruned, List.filter_map,
    Function.comp_def]

variable {first second : Calculation}

/-- Changes contribute what the applied entities admit. -/
theorem contributions_of_entities (entities : first.entities = second.entities) :
    first.contributions = second.contributions := by
  have admits : first.admits = second.admits := by
    funext index compiled
    rw [Calculation.admits, Calculation.admits, entities]
  funext index changes selects
  rw [contributions, contributions, admits]

section Declarations

variable (changes : first.compiled.changes = second.compiled.changes)
  (special : first.compiled.special = second.compiled.special)
  (classLevel : first.character.classLevel = second.character.classLevel)

include changes special classLevel

theorem declarations_of_compiled : first.declarations = second.declarations := by
  have definitions : first.compiled.definitions first.character =
      second.compiled.definitions second.character := by
    rw [Compilation.definitions, Compilation.definitions, Compilation.spellTracks,
      Compilation.spellTracks, special, classLevel]
  rw [declarations, declarations, affectedVariables, affectedVariables, Compilation.resources,
    Compilation.resources, changes, special, definitions]

theorem dependencies_of_compiled : first.dependencies = second.dependencies := by
  apply dependencies_congr (declarations_of_compiled changes special classLevel)
  funext definition
  rw [formulasOf, formulasOf, changes]

end Declarations

/-- Calculations are alike if they are made from the same but for what is
pruned. -/
theorem alike_of_pruned (character : first.character.Alike second.character)
    (raceSpeeds : raceSpeeds first.character = raceSpeeds second.character)
    (compiled : first.compiled.pruned = second.compiled.pruned)
    (table : first.table = second.table) (entities : first.entities = second.entities) :
    first.Alike second := by
  have changes : first.compiled.changes = second.compiled.changes :=
    congrArg (·.changes) compiled
  have special : first.compiled.special = second.compiled.special :=
    congrArg (·.special) compiled
  have contributions := contributions_of_entities entities
  have dependencies := dependencies_of_compiled changes special character.classLevel
  have mandatory : first.mandatory = second.mandatory := by
    funext kind
    rw [mandatory_eq, mandatory_eq, compiled]
  refine ⟨character, table, special, ?_, ?_, mandatory, ?_, ?_, ?_, ?_⟩
  · funext index selects
    rw [sources, sources, contributions, changes]
  · funext index kind selects
    rw [contextualSources, contextualSources, contributions, mandatory]
  · funext kind
    rw [offered_eq, offered_eq, compiled]
  · rw [baseSpeeds, baseSpeeds, changes, raceSpeeds]
  · rw [dependencies]
  · rw [sortedDeclarations, sortedDeclarations, dependencies,
      declarations_of_compiled changes special character.classLevel]

end Calculation

namespace Character

theorem equipment_pruned {α : Type} (character : Character) (pick : ItemKind → Option α) :
    character.pruned.equipment pick = character.equipment pick := by
  have equipped : character.pruned.items.filter (·.equipped) =
      (character.items.filter (·.equipped)).map Item.pruned := by
    rw [pruned, List.filter_map]
    congr 2
    exact funext Item.equipped_pruned
  rw [equipment, equipped, List.filterMap_map]
  apply List.filterMap_congr
  intro item member
  rw [Function.comp_apply, Item.pruned_of_equipped (List.mem_filter.mp member).2]

theorem alike_pruned (character : Character) : character.pruned.Alike character where
  ability := rfl
  size := by
    unfold size pruned
    cases character.race <;> rfl
  naturalArmor := by
    unfold naturalArmor pruned
    cases character.race <;> rfl
  level := List.foldl_map
  classLevel := by
    funext id
    rw [classLevel, pruned, List.filter_map, List.foldl_map]
    rfl
  hitDice := by
    rw [pruned, List.flatMap_map]
    simp only [CharacterClass.hitDice_pruned]
  classAttacks := List.map_map
  classSaves := funext fun _ => List.map_map
  equipment := character.equipment_pruned
  skills := rfl
  ranks := rfl
  hitPoints := rfl
  slots := rfl
  resources := rfl

theorem raceSpeeds_pruned (character : Character) :
    Calculation.raceSpeeds character.pruned = Calculation.raceSpeeds character := by
  unfold Calculation.raceSpeeds pruned
  cases character.race <;> rfl

end Character

namespace Sheet

variable (character : Character) (config : Config)

theorem start_pruned : start character.pruned config = start character config := by
  have levels : levelValues character.pruned = levelValues character := by
    rw [levelValues, levelValues, character.alike_pruned.level, Character.pruned, List.map_map]
    rfl
  rw [start, start, levels]

theorem calculation_pruned :
    (calculation character.pruned config).compiled.pruned =
        (calculation character config).compiled.pruned ∧
      (calculation character.pruned config).entities =
        (calculation character config).entities := by
  have entities : (calculation character.pruned config).entities =
      (calculation character config).entities := by
    unfold calculation
    rw [start_pruned]
    rfl
  refine ⟨?_, entities⟩
  have compiled : ∀ other : Character, (calculation other config).compiled =
      Compilation.ofCharacter other (calculation other config).entities :=
    fun _ => rfl
  rw [compiled, compiled, entities, Compilation.pruned_ofCharacter_pruned]

/-- A pruned character has the same sheet. -/
theorem calculate_pruned : calculate character.pruned config = calculate character config := by
  rcases calculation_pruned character config with ⟨compiled, entities⟩
  have sameRun : Progress.run (calculation character.pruned config) =
      Progress.run (calculation character config) :=
    Progress.run_congr (Calculation.alike_of_pruned character.alike_pruned
      character.raceSpeeds_pruned compiled rfl entities)
  have special : (calculation character.pruned config).compiled.special =
      (calculation character config).compiled.special :=
    congrArg (·.special) compiled
  have warnings : (calculation character.pruned config).compiled.warnings =
      (calculation character config).compiled.warnings :=
    congrArg (·.warnings) compiled
  have suppressible : character.pruned.entities = character.entities := rfl
  rw [calculate_eq, calculate_eq, Progress.runAll, Progress.runAll, beforePhases, beforePhases,
    sameRun, special, warnings, start_pruned, suppressible]

/-- Inert content cannot be told from a sheet: characters that are the same
once they are pruned have the same sheet. -/
theorem calculate_eq_of_pruned_eq (first second : Character) (config : Config)
    (same : first.pruned = second.pruned) : calculate first config = calculate second config := by
  rw [← calculate_pruned first, same, calculate_pruned]

/-- A character with some changes, hit dice and data of an item, all of which
are inert. -/
def holding (changes : List Change) (hitDice : List Float) (kind : ItemKind) : Character :=
  let choice : ContextualChange :=
    { ContextualChange.of "Power Attack" .melee with isOptional := true, changes }
  { Character.of "sample" with
    classes :=
      [{ CharacterClass.of "fighter" "Fighter" 1 with
        hitDice := 10 :: hitDice
        features := [⟨1, { Feature.of "attack" "Attack" with contextual := [choice] }⟩,
          ⟨2, { Feature.of "bravery" "Bravery" with changes }⟩] }]
    items :=
      [{ Item.of "dagger" "Dagger" with equippedChanges := changes, contextual := [choice], kind }]
    buffs := [{ Buff.of "rage" "Rage" with changes }] }

/-- A character with nothing in reserve. -/
def unladen : Character := holding [] [] .gear

/-- A character with something in reserve wherever a sheet does not look. -/
def laden : Character :=
  holding [Change.of .damage "2" BonusType.untyped] [6] (.weapon ⟨"1d4", .melee, 1⟩)

theorem calculate_eq_of_pruned_eq_laden :
    laden.pruned = unladen.pruned ∧
      calculate laden Config.default = calculate unladen Config.default :=
  ⟨rfl, calculate_eq_of_pruned_eq laden unladen Config.default rfl⟩

end Sheet

end CharacterSheet
