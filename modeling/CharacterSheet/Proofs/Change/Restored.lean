import CharacterSheet.Change.Contextual
import CharacterSheet.Change.Special
import CharacterSheet.Proofs.Condition.Restored
import CharacterSheet.Proofs.Numeric.Digits
import CharacterSheet.Proofs.Text.Blank

/-!
# Changes and definitions are decoded again

The target of a change stands among the members of the change, and so do the
members of a definition beside its type.  Each is decoded from the object as a
whole, because no other member has one of its names.

A table by class level names its rows by the levels.  The names do not sort as
the levels do, and yet the table that is read is the same.
-/

namespace CharacterSheet

theorem Ability.restores (ability : Ability) : Restores Ability.toJson Ability.ofJson? ability :=
  .choice (by decide) (by cases ability <;> decide)

theorem SaveTarget.restores (target : SaveTarget) :
    Restores SaveTarget.toJson SaveTarget.ofJson? target :=
  .choice (by decide) (by rcases target with (_ | _ | _) | _ <;> decide)

theorem SpeedMode.restores (mode : SpeedMode) :
    Restores SpeedMode.toJson SpeedMode.ofJson? mode :=
  .choice (by decide) (by cases mode <;> decide)

theorem AttackKind.restores (kind : AttackKind) :
    Restores AttackKind.toJson AttackKind.ofJson? kind :=
  .choice (by decide) (by cases kind <;> decide)

namespace Change

/-- The members of a change beside those of its target. -/
def ownNames : List String := ["formula", "bonusTypeId", "conditions"]

end Change

namespace ChangeTarget

/-- No member of a target has the name of another member of a change. -/
theorem last?_members (target : ChangeTarget) {name : String} (own : name ∈ Change.ownNames) :
    target.members.last? name = none := by
  simp only [Change.ownNames, List.mem_cons, List.not_mem_nil, or_false] at own
  rcases own with rfl | rfl | rfl <;> cases target <;> simp [members]

/-- A target is decoded from its members wherever these stand. -/
theorem ofMembers?_eq_some (target : ChangeTarget) {stored : Members}
    (holds : ∀ name, name ∉ Change.ownNames → stored.lookup name = target.members.last? name) :
    ofMembers? stored = some target := by
  cases target with
  | abilityScore ability | abilityChecks ability | abilitySkills ability =>
    simp [ofMembers?, members, Members.required, Json.string?, holds, Change.ownNames,
      ability.restores.decoded]
  | savingThrow target =>
    simp [ofMembers?, members, Members.required, Json.string?, holds, Change.ownNames,
      target.restores.decoded]
  | speed mode =>
    simp [ofMembers?, members, Members.required, Json.string?, holds, Change.ownNames,
      mode.restores.decoded]
  | attackRolls kind =>
    simp [ofMembers?, members, Members.required, Members.defaulted, Json.string?, holds,
      Change.ownNames, kind.restores.decoded]
  | _ => simp [ofMembers?, members, Members.required, Json.string?, holds, Change.ownNames]

end ChangeTarget

namespace Change

/-- All counts in the conditions can be written. -/
def Writable (change : Change) : Prop :=
  ∀ condition ∈ change.conditions, condition.Writable

theorem restores {change : Change} (writable : change.Writable) :
    Restores toJson ofJson? change := by
  refine .record rfl fun stored holds => ?_
  have target : ChangeTarget.ofMembers? stored = some change.target := by
    apply ChangeTarget.ofMembers?_eq_some
    intro name other
    simp only [ownNames, List.mem_cons, List.not_mem_nil, or_false, not_or] at other
    simp [holds, other]
  have noConditions : change.target.members.last? "conditions" = none :=
    change.target.last?_members (by decide)
  have formula := stored.required_eq_some "formula" change.formula.restores (by simp [holds])
  have bonusType := stored.defaulted_eq_some "bonusTypeId" BonusType.untyped
    (.text change.bonusType) (by simp [holds])
  have conditions := stored.listed_eq_some "conditions" change.conditions
    (fun condition listed => Condition.restores (writable condition listed))
    (by simp [holds, noConditions])
  simp only [target, formula, bonusType, conditions]
  rfl

end Change

namespace ContextualVariable

/-- The range is bounded by numbers. -/
def Writable (parameter : ContextualVariable) : Prop :=
  parameter.min.isFinite = true ∧ parameter.max.isFinite = true

theorem restores {parameter : ContextualVariable} (writable : parameter.Writable) :
    Restores toJson ofJson? parameter := by
  refine .record rfl fun stored holds => ?_
  have name := stored.required_eq_some "name" (.text parameter.name) (by simp [holds])
  have identifier := stored.required_eq_some "identifier" (.text parameter.identifier)
    (by simp [holds])
  have low := stored.required_eq_some "min" (.number writable.1) (by simp [holds])
  have high := stored.required_eq_some "max" (.number writable.2) (by simp [holds])
  simp only [name, identifier, low, high]
  rfl

end ContextualVariable

namespace ContextualChange

/-- All numbers within can be written. -/
structure Writable (change : ContextualChange) : Prop where
  inputs : ∀ parameter ∈ change.inputs, parameter.Writable
  changes : ∀ inner ∈ change.changes, inner.Writable

theorem restores_situation : Restores (fun _ => .str "attack") situation? () :=
  ⟨rfl, Json.noConfusion⟩

theorem restores {change : ContextualChange} (writable : change.Writable) :
    Restores toJson ofJson? change := by
  refine .record rfl fun stored holds => ?_
  have name := stored.required_eq_some "name" (.text change.name) (by simp [holds])
  have situation := stored.defaulted_eq_some "type" () restores_situation (by simp [holds])
  have appliesTo := stored.defaulted_eq_some "appliesTo" .all change.appliesTo.restores
    (by simp [holds])
  have isOptional := stored.defaulted_eq_some "optional" false (.truth change.isOptional)
    (by simp [holds])
  have available := stored.defaulted_eq_some "available" true (.truth change.available)
    (by simp [holds])
  have inputs := stored.listed_eq_some "variables" change.inputs
    (fun parameter listed => ContextualVariable.restores (writable.inputs parameter listed))
    (by simp [holds])
  have changes := stored.listed_eq_some_of_written "changes" change.changes
    (fun inner listed => Change.restores (writable.changes inner listed)) (by simp [holds])
  simp only [name, situation, appliesTo, isOptional, available, inputs, changes]
  rfl

end ContextualChange

/-- Digits are read as the number that they write. -/
theorem Numeric.readNatBelow?_digits {bound : Nat} {digits : List Char} (written : digits ≠ [])
    (isDigit : ∀ c ∈ digits, c.isDigit = true) (below : digitsValue digits < bound) :
    readNatBelow? bound digits = some (digitsValue digits) := by
  have unsigned : ∀ rest, digits ≠ '+' :: rest := by
    rintro rest rfl
    exact absurd (isDigit '+' List.mem_cons_self) (by decide)
  have nonempty : digits.isEmpty = false := by
    rw [List.isEmpty_eq_false_iff]
    exact written
  have allDigits : digits.all Char.isDigit = true := List.all_eq_true.mpr isDigit
  unfold readNatBelow?
  split
  · rename_i rest
    exact absurd rfl (unsigned rest)
  · dsimp only
    rw [nonempty, allDigits]
    exact if_pos below

namespace LevelTable

/-- Levels have at most 32 bits, and all numbers are finite. -/
def Writable (table : LevelTable) : Prop :=
  ∀ entry ∈ table.rows.toList, entry.1 < Numeric.powerOfTwo 32 ∧
    ∀ number ∈ entry.2, number.isFinite = true

/-- A level is read from its decimal digits. -/
theorem level?_toString {level : Nat} (below : level < Numeric.powerOfTwo 32) :
    level? (toString level) = some level := by
  have digits : (toString level).toList = Nat.toDigits 10 level := by
    rw [Nat.toString_eq_ofList_toDigits, String.toList_ofList]
  have isDigit : ∀ c ∈ Nat.toDigits 10 level, c.isDigit = true :=
    fun c member => Nat.isDigit_of_mem_toDigits (by decide) (by decide) member
  have plain := Text.trim_of_plain fun c member => Text.isBlank_of_isDigit (isDigit c member)
  rw [level?, digits, plain, Numeric.readNatBelow?_digits Nat.toDigits_ne_nil isDigit, Numeric.digitsValue_toDigits]
  rwa [Numeric.digitsValue_toDigits]

theorem restores {table : LevelTable} (writable : table.Writable) :
    Restores toJson ofJson? table := by
  have rows : Restores (Json.ofMapBy toString (Json.ofList Json.ofFloat))
      (Json.mapBy? level? (Json.list? Json.float?)) table.rows := by
    refine .mapBy (fun entry listed => level?_toString (writable entry listed).1)
      fun entry listed => ?_
    exact .list entry.2 fun number member => .number ((writable entry listed).2 number member)
  refine ⟨?_, rows.written⟩
  rw [toJson, ofJson?, rows.decoded]
  rfl

end LevelTable

namespace KnownLimit

/-- The table, if there is one, can be written. -/
def Writable : KnownLimit → Prop
  | unlimited => True
  | perSpellLevel table | total table => table.Writable

theorem restores {limit : KnownLimit} (writable : limit.Writable) :
    Restores toJson ofJson? limit := by
  cases limit with
  | unlimited =>
    refine .record rfl fun stored holds => ?_
    have type := stored.required_eq_some "type" (.text "UNLIMITED") (by simp [holds])
    simp only [type]
    rfl
  | perSpellLevel table =>
    refine .record rfl fun stored holds => ?_
    have type := stored.required_eq_some "type" (.text "LIMITED_PER_ENTITY_LEVEL")
      (by simp [holds])
    have table := stored.required_eq_some "table" (LevelTable.restores writable) (by simp [holds])
    simp only [type, table]
    rfl
  | total table =>
    refine .record rfl fun stored holds => ?_
    have type := stored.required_eq_some "type" (.text "LIMITED_TOTAL") (by simp [holds])
    have table := stored.required_eq_some "table" (LevelTable.restores writable) (by simp [holds])
    simp only [type, table]
    rfl

end KnownLimit

theorem SlotTrack.restores {track : SlotTrack} (writable : track.slots.Writable) :
    Restores toJson ofJson? track := by
  refine .record rfl fun stored holds => ?_
  have id := stored.required_eq_some "id" (.text track.id) (by simp [holds])
  have label := stored.nullable_eq_some "label" track.label (fun label _ => .text label)
    (by simp [holds])
  have slots := stored.required_eq_some "slots" (LevelTable.restores writable) (by simp [holds])
  simp only [id, label, slots]
  rfl

theorem VariableSource.restores (source : VariableSource) : Restores toJson ofJson? source := by
  refine .record rfl fun stored holds => ?_
  have name := stored.required_eq_some "name" (.text source.name) (by simp [holds])
  have formula := stored.required_eq_some "formula" source.formula.restores (by simp [holds])
  have bonusType := stored.defaulted_eq_some "bonusTypeId" BonusType.base (.text source.bonusType)
    (by simp [holds])
  simp only [name, formula, bonusType]
  rfl

section Definitions

variable {stored : Members}

theorem VariableDefinition.ofMembers?_eq_some (definition : VariableDefinition)
    (holds : ∀ name, name ≠ "type" → stored.lookup name = definition.members.last? name) :
    ofMembers? stored = some definition := by
  have id := stored.required_eq_some "variableId" (.text definition.id.name)
    (by simp [holds, members])
  have name := stored.defaulted_eq_some "name" "" (.text definition.name) (by simp [holds, members])
  have sources := stored.listed_eq_some_of_written "baseSources" definition.sources
    (fun source _ => source.restores) (by simp [holds, members])
  simp only [ofMembers?, id, name, sources]
  rfl

/-- All tables within can be written. -/
structure SpellTracks.Writable (tracks : SpellTracks) : Prop where
  known : ∀ limit ∈ tracks.known, limit.Writable
  tracks : ∀ track ∈ tracks.tracks, track.slots.Writable

theorem SpellTracks.ofMembers?_eq_some {tracks : SpellTracks} (writable : tracks.Writable)
    (holds : ∀ name, name ≠ "type" → stored.lookup name = tracks.members.last? name) :
    ofMembers? stored = some tracks := by
  have id := stored.required_eq_some "id" (.text tracks.id) (by simp [holds, members])
  have classId := stored.required_eq_some "classId" (.text tracks.classId)
    (by simp [holds, members])
  have variableStart := stored.required_eq_some "classPrefix" (.text tracks.variableStart)
    (by simp [holds, members])
  have casterLevel := stored.required_eq_some "casterLevelVar" (.text tracks.casterLevelVariable)
    (by simp [holds, members])
  have known := stored.nullable_eq_some "known" tracks.known
    (fun limit kept => KnownLimit.restores (writable.known limit kept)) (by simp [holds, members])
  have slots := stored.listed_eq_some_of_written "tracks" tracks.tracks
    (fun track listed => SlotTrack.restores (writable.tracks track listed))
    (by simp [holds, members])
  simp only [ofMembers?, id, classId, variableStart, casterLevel, known, slots]
  rfl

theorem Resource.ofMembers?_eq_some (resource : Resource)
    (holds : ∀ name, name ≠ "type" → stored.lookup name = resource.members.last? name) :
    ofMembers? stored = some resource := by
  have id := stored.required_eq_some "resourceId" (.text resource.id) (by simp [holds, members])
  have name := stored.required_eq_some "name" (.text resource.name) (by simp [holds, members])
  have description := stored.nullable_eq_some "description" resource.description
    (fun description _ => .text description) (by simp [holds, members])
  have maximum := stored.required_eq_some "maxValueFormula" resource.maximum.restores
    (by simp [holds, members])
  have minimum := stored.defaulted_eq_some "minValueFormula" (.plain "0") resource.minimum.restores
    (by simp [holds, members])
  have chargesPerUse := stored.defaulted_eq_some "defaultChargesPerUseFormula" (.plain "1")
    resource.chargesPerUse.restores (by simp [holds, members])
  have recharge := stored.defaulted_eq_some "rechargeFormula" (.plain "0")
    resource.recharge.restores (by simp [holds, members])
  have initial := stored.nullable_eq_some "initialValueFormula" resource.initial
    (fun formula _ => formula.restores) (by simp [holds, members])
  simp only [ofMembers?, id, name, description, maximum, minimum, chargesPerUse, recharge, initial]
  rfl

end Definitions

namespace SpecialChange

/-- All tables within can be written. -/
def Writable : SpecialChange → Prop
  | spellTracks tracks => tracks.Writable
  | customVariable _ | resource _ => True

theorem restores {special : SpecialChange} (writable : special.Writable) :
    Restores toJson ofJson? special := by
  cases special with
  | customVariable definition =>
    refine .record rfl fun stored holds => ?_
    have type := stored.required_eq_some "type" (.text "CUSTOM_VARIABLE_DEFINITION")
      (by simp [holds, VariableDefinition.members])
    have members : VariableDefinition.ofMembers? stored = some definition :=
      definition.ofMembers?_eq_some fun name other => by simp [holds, other]
    simp only [type, members]
    rfl
  | spellTracks tracks =>
    refine .record rfl fun stored holds => ?_
    have type := stored.required_eq_some "type" (.text "CGE_DEFINITION")
      (by simp [holds, SpellTracks.members])
    have members : SpellTracks.ofMembers? stored = some tracks :=
      SpellTracks.ofMembers?_eq_some writable fun name other => by simp [holds, other]
    simp only [type, members]
    rfl
  | resource resource =>
    refine .record rfl fun stored holds => ?_
    have type := stored.required_eq_some "type" (.text "RESOURCE_DEFINITION")
      (by simp [holds, Resource.members])
    have members : Resource.ofMembers? stored = some resource :=
      resource.ofMembers?_eq_some fun name other => by simp [holds, other]
    simp only [type, members]
    rfl

end SpecialChange
end CharacterSheet
