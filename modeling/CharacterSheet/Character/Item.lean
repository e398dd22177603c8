import CharacterSheet.Character.Class

/-!
# Items and buffs

An item brings its changes while it is carried, and others only while it is
equipped.  Weapons, armor and shields have data of their own.  A buff is a
bundle of changes that can be switched on and off.
-/

namespace CharacterSheet

/-- Whether a weapon is for close combat. -/
inductive WeaponKind where
  | melee
  | ranged
  deriving DecidableEq, Inhabited

namespace WeaponKind

/-- The kind of the attacks made with the weapon. -/
def attackKind : WeaponKind → AttackKind
  | melee => .melee
  | ranged => .ranged

def toJson (kind : WeaponKind) : Json := kind.attackKind.toJson

def ofJson? : Json → Option WeaponKind :=
  Json.choice? [melee, ranged] fun kind => kind.attackKind.name

end WeaponKind

/-- The data of a weapon. -/
structure Weapon where
  damageDice : String
  kind : WeaponKind
  enhancement : Float
  deriving BEq

/-- The data of a suit of armor. -/
structure Armor where
  bonus : Float
  enhancement : Float
  /-- The most that dexterity can add to armor class. -/
  maxDexterity : Option Float
  deriving BEq

/-- The data of a shield. -/
structure Shield where
  bonus : Float
  enhancement : Float
  deriving BEq

/-- What an item is. -/
inductive ItemKind where
  | weapon (weapon : Weapon)
  | armor (armor : Armor)
  | shield (shield : Shield)
  | gear
  deriving BEq, Inhabited

namespace ItemKind

/-- The data of a weapon, if the item is one. -/
def weapon? : ItemKind → Option Weapon
  | weapon data => some data
  | _ => none

/-- The data of armor, if the item is some. -/
def armor? : ItemKind → Option Armor
  | armor data => some data
  | _ => none

/-- The data of a shield, if the item is one. -/
def shield? : ItemKind → Option Shield
  | shield data => some data
  | _ => none

def members : ItemKind → Members
  | weapon data =>
    [("itemType", .str "WEAPON"), ("damageDice", .str data.damageDice),
      ("weaponKind", data.kind.toJson), ("enhancementBonus", .ofFloat data.enhancement)]
  | armor data =>
    [("itemType", .str "ARMOR"), ("baseArmorBonus", .ofFloat data.bonus),
      ("enhancementBonus", .ofFloat data.enhancement)] ++
      Members.ofOption "maxDexBonus" .ofFloat data.maxDexterity
  | shield data =>
    [("itemType", .str "SHIELD"), ("baseShieldBonus", .ofFloat data.bonus),
      ("enhancementBonus", .ofFloat data.enhancement)]
  | gear => [("itemType", .str "GEAR")]

def ofMembers? (members : Members) : Option ItemKind := do
  match ← members.required "itemType" Json.string? with
  | "WEAPON" =>
    let dice ← members.required "damageDice" Json.string?
    let kind ← members.required "weaponKind" WeaponKind.ofJson?
    let enhancement ← members.defaulted "enhancementBonus" Json.float? 0
    return weapon ⟨dice, kind, enhancement⟩
  | "ARMOR" =>
    let bonus ← members.required "baseArmorBonus" Json.float?
    let enhancement ← members.defaulted "enhancementBonus" Json.float? 0
    let maxDexterity ← members.nullable "maxDexBonus" Json.float?
    return armor ⟨bonus, enhancement, maxDexterity⟩
  | "SHIELD" =>
    let bonus ← members.required "baseShieldBonus" Json.float?
    let enhancement ← members.defaulted "enhancementBonus" Json.float? 0
    return shield ⟨bonus, enhancement⟩
  | "GEAR" => return gear
  | _ => none

end ItemKind

/-- A thing that a character carries. -/
structure Item where
  id : String
  name : String
  equipped : Bool
  /-- The changes while the item is carried. -/
  changes : List Change
  /-- The changes while the item is equipped. -/
  equippedChanges : List Change
  special : List SpecialChange
  /-- The contextual changes while the item is equipped. -/
  contextual : List ContextualChange
  kind : ItemKind
  deriving BEq

namespace Item

/-- An item that is not equipped and brings nothing yet. -/
def of (id name : String) : Item :=
  ⟨id, name, false, [], [], [], [], .gear⟩

def toJson (item : Item) : Json :=
  .object ([("uniqueId", .str item.id), ("name", .str item.name),
      ("equipped", .bool item.equipped), ("changes", .ofList Change.toJson item.changes),
      ("equippedChanges", .ofList Change.toJson item.equippedChanges),
      ("specialChanges", .ofList SpecialChange.toJson item.special)] ++
    Members.ofItems "contextualChanges" ContextualChange.toJson item.contextual ++
    item.kind.members)

def ofJson? : Json → Option Item :=
  Json.record? fun members => do
    let id ← members.required "uniqueId" Json.string?
    let name ← members.required "name" Json.string?
    let equipped ← members.defaulted "equipped" Json.bool? false
    let changes ← members.listed "changes" Change.ofJson?
    let equippedChanges ← members.listed "equippedChanges" Change.ofJson?
    let special ← members.listed "specialChanges" SpecialChange.ofJson?
    let contextual ← members.listed "contextualChanges" ContextualChange.ofJson?
    let kind ← ItemKind.ofMembers? members
    return ⟨id, name, equipped, changes, equippedChanges, special, contextual, kind⟩

end Item

/-- A bundle of changes that can be switched on and off. -/
structure Buff where
  id : String
  name : String
  active : Bool
  origin : OriginType
  changes : List Change
  special : List SpecialChange
  contextual : List ContextualChange
  deriving BEq

namespace Buff

/-- A buff that is switched off and brings nothing yet. -/
def of (id name : String) : Buff :=
  ⟨id, name, false, .buff, [], [], []⟩

def toJson (buff : Buff) : Json :=
  .object ([("uniqueId", .str buff.id), ("name", .str buff.name), ("active", .bool buff.active),
      ("originType", buff.origin.toJson), ("changes", .ofList Change.toJson buff.changes),
      ("specialChanges", .ofList SpecialChange.toJson buff.special)] ++
    Members.ofItems "contextualChanges" ContextualChange.toJson buff.contextual)

def ofJson? : Json → Option Buff :=
  Json.record? fun members => do
    let id ← members.required "uniqueId" Json.string?
    let name ← members.required "name" Json.string?
    let active ← members.defaulted "active" Json.bool? false
    let origin ← members.defaulted "originType" OriginType.ofJson? .other
    let changes ← members.listed "changes" Change.ofJson?
    let special ← members.listed "specialChanges" SpecialChange.ofJson?
    let contextual ← members.listed "contextualChanges" ContextualChange.ofJson?
    return ⟨id, name, active, origin, changes, special, contextual⟩

end Buff

end CharacterSheet
