import CharacterSheet.Bonus.Table
import CharacterSheet.Change.LevelTable
import CharacterSheet.Formula.Basic
import CharacterSheet.Numeric.Layout

/-!
# Definitions that come with content

Beside changes, content can bring definitions: of custom variables, of the
spell tracks of a class, and of resources such as a pool of points.
-/

namespace CharacterSheet

/-- A contribution to the value of a custom variable from its definition. -/
structure VariableSource where
  name : String
  formula : Formula
  bonusType : String
  deriving DecidableEq

namespace VariableSource

/-- A base value. -/
def base (name expression : String) : VariableSource :=
  ⟨name, .plain expression, BonusType.base⟩

def toJson (source : VariableSource) : Json :=
  .object [("name", .str source.name), ("formula", source.formula.toJson),
    ("bonusTypeId", .str source.bonusType)]

def ofJson? : Json → Option VariableSource :=
  Json.record? fun members => do
    let name ← members.required "name" Json.string?
    let formula ← members.required "formula" Formula.ofJson?
    let bonusType ← members.defaulted "bonusTypeId" Json.string? BonusType.base
    return ⟨name, formula, bonusType⟩

end VariableSource

/-- The definition of a custom variable. -/
structure VariableDefinition where
  id : VariableId
  name : String
  sources : List VariableSource
  deriving DecidableEq

namespace VariableDefinition

/-- The variable whose base value is a number, which is written out as an
expression. -/
def constant (id : VariableId) (name : String) (value : Float) : VariableDefinition :=
  ⟨id, name, [VariableSource.base name (Numeric.plainText value)]⟩

def members (definition : VariableDefinition) : Members :=
  [("variableId", .str definition.id.name), ("name", .str definition.name),
    ("baseSources", .ofList VariableSource.toJson definition.sources)]

def ofMembers? (members : Members) : Option VariableDefinition := do
  let id ← members.required "variableId" Json.string?
  let name ← members.defaulted "name" Json.string? ""
  let sources ← members.listed "baseSources" VariableSource.ofJson?
  return ⟨⟨id⟩, name, sources⟩

def toJson (definition : VariableDefinition) : Json :=
  .object definition.members

end VariableDefinition

/-- How many spells of a class can be known. -/
inductive KnownLimit where
  | unlimited
  | perSpellLevel (table : LevelTable)
  | total (table : LevelTable)
  deriving BEq, Inhabited

namespace KnownLimit

def toJson : KnownLimit → Json
  | unlimited => .object [("type", .str "UNLIMITED")]
  | perSpellLevel table =>
    .object [("type", .str "LIMITED_PER_ENTITY_LEVEL"), ("table", table.toJson)]
  | total table => .object [("type", .str "LIMITED_TOTAL"), ("table", table.toJson)]

def ofJson? : Json → Option KnownLimit :=
  Json.record? fun members => do
    match ← members.required "type" Json.string? with
    | "UNLIMITED" => return unlimited
    | "LIMITED_PER_ENTITY_LEVEL" => perSpellLevel <$> members.required "table" LevelTable.ofJson?
    | "LIMITED_TOTAL" => total <$> members.required "table" LevelTable.ofJson?
    | _ => none

end KnownLimit

/-- A track of spell slots. -/
structure SlotTrack where
  id : String
  label : Option String
  slots : LevelTable
  deriving BEq, Inhabited

namespace SlotTrack

def toJson (track : SlotTrack) : Json :=
  .object ([("id", .str track.id)] ++ Members.ofOption "label" .str track.label ++
    [("slots", track.slots.toJson)])

def ofJson? : Json → Option SlotTrack :=
  Json.record? fun members => do
    let id ← members.required "id" Json.string?
    let label ← members.nullable "label" Json.string?
    let slots ← members.required "slots" LevelTable.ofJson?
    return ⟨id, label, slots⟩

end SlotTrack

/-- The spell tracks of a class.  The numbers of slots and of known spells
become custom variables whose names begin with a common part, so that changes
can raise them. -/
structure SpellTracks where
  id : String
  classId : String
  variableStart : String
  casterLevelVariable : String
  known : Option KnownLimit
  tracks : List SlotTrack
  deriving BEq, Inhabited

namespace SpellTracks

/-- The variable for the slots of a spell level. -/
def slotVariable (tracks : SpellTracks) (level : Nat) : VariableId :=
  ⟨tracks.variableStart ++ ".slot." ++ toString level ++ ".max"⟩

/-- The key of the slots of a spell level that are left. -/
def currentSlotKey (tracks : SpellTracks) (level : Nat) : String :=
  tracks.variableStart ++ ".slot." ++ toString level ++ ".current"

/-- The variable for the known spells of a spell level, or of all levels
together. -/
def knownVariable (tracks : SpellTracks) (level : Option Nat) : VariableId :=
  match level with
  | some level => ⟨tracks.variableStart ++ ".known." ++ toString level ++ ".max"⟩
  | none => ⟨tracks.variableStart ++ ".known.total.max"⟩

/-- The limits on known spells at a class level, each for a spell level or for
all levels together.  Which spell levels of a table count is given. -/
def knownCounts (tracks : SpellTracks) (counts : LevelTable → Nat → List (Nat × Float))
    (classLevel : Nat) : List (Option Nat × Float) :=
  match tracks.known with
  | some (.perSpellLevel table) =>
    (counts table classLevel).map fun entry => (some entry.1, entry.2)
  | some (.total table) => (table.first? classLevel).toList.map (none, ·)
  | some .unlimited => []
  | none => []

/-- What the limit on known spells of a level is called in breakdowns. -/
def knownLabel (tracks : SpellTracks) (level : Option Nat) : String :=
  match level with
  | some level => tracks.classId ++ " known level " ++ toString level
  | none => tracks.classId ++ " known total"

/-- What the slots of a spell level are called in breakdowns. -/
def slotLabel (tracks : SpellTracks) (level : Nat) : String :=
  tracks.classId ++ " slots level " ++ toString level

def members (tracks : SpellTracks) : Members :=
  [("id", .str tracks.id), ("classId", .str tracks.classId),
    ("classPrefix", .str tracks.variableStart),
    ("casterLevelVar", .str tracks.casterLevelVariable)] ++
    Members.ofOption "known" KnownLimit.toJson tracks.known ++
    [("tracks", .ofList SlotTrack.toJson tracks.tracks)]

def ofMembers? (members : Members) : Option SpellTracks := do
  let id ← members.required "id" Json.string?
  let classId ← members.required "classId" Json.string?
  let variableStart ← members.required "classPrefix" Json.string?
  let casterLevelVariable ← members.required "casterLevelVar" Json.string?
  let known ← members.nullable "known" KnownLimit.ofJson?
  let tracks ← members.listed "tracks" SlotTrack.ofJson?
  return ⟨id, classId, variableStart, casterLevelVariable, known, tracks⟩

def toJson (tracks : SpellTracks) : Json :=
  .object tracks.members

/-- The custom variables that hold the numbers of the tracks at a class level:
the limits on known spells, the slots of all tracks, and the caster level.
Only positive numbers of a table become variables. -/
def definitions (tracks : SpellTracks) (classLevel : Nat) : List VariableDefinition :=
  (tracks.knownCounts LevelTable.positives classLevel).map
      (fun entry => .constant (tracks.knownVariable entry.1) (tracks.knownLabel entry.1) entry.2) ++
    (tracks.tracks.flatMap fun track => track.slots.positives classLevel).map
      (fun entry => .constant (tracks.slotVariable entry.1) (tracks.slotLabel entry.1) entry.2) ++
    [.constant ⟨tracks.casterLevelVariable⟩ (tracks.classId ++ " caster level")
      (Float.ofNat classLevel)]

end SpellTracks

/-- A property of a resource that changes can raise. -/
inductive ResourceProperty where
  | maximum
  | minimum
  | initial
  | chargesPerUse
  | recharge
  deriving DecidableEq, Inhabited

namespace ResourceProperty

def all : List ResourceProperty := [maximum, minimum, initial, chargesPerUse, recharge]

def name : ResourceProperty → String
  | maximum => "max"
  | minimum => "min"
  | initial => "initial"
  | chargesPerUse => "defaultChargesPerUse"
  | recharge => "rechargeAmount"

end ResourceProperty

/-- The definition of a resource. -/
structure Resource where
  id : String
  name : String
  description : Option String
  maximum : Formula
  minimum : Formula
  chargesPerUse : Formula
  recharge : Formula
  /-- The value at first, if it is not the maximum. -/
  initial : Option Formula
  deriving DecidableEq

namespace Resource

/-- A resource that can be used up one by one and does not recharge. -/
def of (id name maximum : String) : Resource :=
  ⟨id, name, none, .plain maximum, .plain "0", .plain "1", .plain "0", none⟩

/-- The beginning of the keys of all resources. -/
def keyStart : String := "resources."

/-- The key of a part of the resource. -/
def key (resource : Resource) (part : String) : String :=
  keyStart ++ resource.id ++ "." ++ part

/-- The variable by which changes raise a property. -/
def propertyVariable (resource : Resource) (property : ResourceProperty) : VariableId :=
  ⟨resource.key property.name⟩

/-- Whether a variable lies among the keys of the resource. -/
def owns (resource : Resource) (id : VariableId) : Bool :=
  match Text.stringAfter? (keyStart ++ resource.id) id.name with
  | some rest => rest.toList.head? = some '.'
  | none => false

def members (resource : Resource) : Members :=
  [("resourceId", .str resource.id), ("name", .str resource.name)] ++
    Members.ofOption "description" .str resource.description ++
    [("maxValueFormula", resource.maximum.toJson), ("minValueFormula", resource.minimum.toJson),
      ("defaultChargesPerUseFormula", resource.chargesPerUse.toJson),
      ("rechargeFormula", resource.recharge.toJson)] ++
    Members.ofOption "initialValueFormula" Formula.toJson resource.initial

def ofMembers? (members : Members) : Option Resource := do
  let id ← members.required "resourceId" Json.string?
  let name ← members.required "name" Json.string?
  let description ← members.nullable "description" Json.string?
  let maximum ← members.required "maxValueFormula" Formula.ofJson?
  let minimum ← members.defaulted "minValueFormula" Formula.ofJson? (.plain "0")
  let chargesPerUse ←
    members.defaulted "defaultChargesPerUseFormula" Formula.ofJson? (.plain "1")
  let recharge ← members.defaulted "rechargeFormula" Formula.ofJson? (.plain "0")
  let initial ← members.nullable "initialValueFormula" Formula.ofJson?
  return ⟨id, name, description, maximum, minimum, chargesPerUse, recharge, initial⟩

def toJson (resource : Resource) : Json :=
  .object resource.members

end Resource

/-- A definition that comes with content. -/
inductive SpecialChange where
  | customVariable (definition : VariableDefinition)
  | spellTracks (definition : SpellTracks)
  | resource (definition : Resource)
  deriving BEq

namespace SpecialChange

/-- The definition of a custom variable, if it is one. -/
def definition? : SpecialChange → Option VariableDefinition
  | customVariable definition => some definition
  | _ => none

/-- The spell tracks, if these are defined. -/
def spellTracks? : SpecialChange → Option SpellTracks
  | spellTracks definition => some definition
  | _ => none

/-- The resource, if one is defined. -/
def resource? : SpecialChange → Option Resource
  | resource definition => some definition
  | _ => none

def toJson : SpecialChange → Json
  | customVariable definition =>
    .object (("type", .str "CUSTOM_VARIABLE_DEFINITION") :: definition.members)
  | spellTracks definition =>
    .object (("type", .str "CGE_DEFINITION") :: definition.members)
  | resource definition =>
    .object (("type", .str "RESOURCE_DEFINITION") :: definition.members)

def ofJson? : Json → Option SpecialChange :=
  Json.record? fun members => do
    match ← members.required "type" Json.string? with
    | "CUSTOM_VARIABLE_DEFINITION" => customVariable <$> VariableDefinition.ofMembers? members
    | "CGE_DEFINITION" => spellTracks <$> SpellTracks.ofMembers? members
    | "RESOURCE_DEFINITION" => resource <$> Resource.ofMembers? members
    | _ => none

end SpecialChange

end CharacterSheet
