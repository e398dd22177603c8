import CharacterSheet.Json.Record

/-!
# Bonus types

Every contribution to a statistic has a bonus type, which decides how it
combines with others of its type: they add up, or only the highest counts.  A
type can also be left out of two variants of armor class, against touch
attacks and while flat-footed.

The rules of the types are data, a `BonusTable`.  The default table lets base
values, their replacements, untyped and dodge bonuses add up, and nothing
else.
-/

namespace CharacterSheet

/-- How contributions of one bonus type combine. -/
inductive StackRule where
  | additive
  | highest
  deriving DecidableEq, Inhabited

namespace StackRule

def toJson : StackRule → Json
  | additive => .str "additive"
  | highest => .str "max"

def ofJson? : Json → Option StackRule
  | .str "additive" => some additive
  | .str "max" => some highest
  | _ => none

end StackRule

/-- The rule of a bonus type. -/
structure BonusRule where
  stacking : StackRule
  touch : Bool
  flatFooted : Bool
  deriving DecidableEq, Inhabited

namespace BonusRule

/-- Only the highest counts, for every variant of armor class. -/
def highest : BonusRule := ⟨.highest, true, true⟩

/-- Contributions add up, for every variant of armor class. -/
def additive : BonusRule := ⟨.additive, true, true⟩

/-- The same rule, left out against touch attacks. -/
def withoutTouch (rule : BonusRule) : BonusRule :=
  { rule with touch := false }

/-- The same rule, left out while flat-footed. -/
def withoutFlatFooted (rule : BonusRule) : BonusRule :=
  { rule with flatFooted := false }

/-- The members of a rule, in the order in which they are written. -/
def members (rule : BonusRule) : Members :=
  [("stackRule", rule.stacking.toJson), ("countsForTouch", .bool rule.touch),
    ("countsForFlatFooted", .bool rule.flatFooted)]

def toJson (rule : BonusRule) : Json :=
  .object rule.members

/-- The rule as it is written. -/
def layout (rule : BonusRule) : Json :=
  .obj rule.members

def ofJson? : Json → Option BonusRule :=
  Json.record? fun members => do
    let stacking ← members.defaulted "stackRule" StackRule.ofJson? .highest
    let touch ← members.defaulted "countsForTouch" Json.bool? true
    let flatFooted ← members.defaulted "countsForFlatFooted" Json.bool? true
    return ⟨stacking, touch, flatFooted⟩

end BonusRule

namespace BonusType

/-- The type of base values. -/
def base : String := "BASE"

/-- The type of values that take the place of all base values. -/
def replacement : String := "REPLACEMENT"

/-- The type of bonuses without a type of their own. -/
def untyped : String := "UNTYPED"

/-- The type of bonuses from size. -/
def size : String := "SIZE"

/-- The type of bonuses from worn armor. -/
def armor : String := "ARMOR"

/-- The type of bonuses from a shield. -/
def shield : String := "SHIELD"

/-- The type of bonuses from a tough hide. -/
def naturalArmor : String := "NATURAL_ARMOR"

/-- The type of bonuses from agility. -/
def dexterity : String := "DEXTERITY"

/-- The type of bonuses from magic that improves a thing. -/
def enhancement : String := "ENHANCEMENT"

/-- The type of bonuses from evading. -/
def dodge : String := "DODGE"

end BonusType

/-- The rules of bonus types, and the rule of all others. -/
structure BonusTable where
  rules : SortedMap String BonusRule
  unknown : BonusRule
  deriving DecidableEq

namespace BonusTable

/-- The table without rules, under which no type adds up. -/
def empty : BonusTable := ⟨SortedMap.empty, BonusRule.highest⟩

/-- Set the rule of a type. -/
def set (table : BonusTable) (type : String) (rule : BonusRule) : BonusTable :=
  { table with rules := table.rules.insert type rule }

/-- The rule of a type. -/
def rule (table : BonusTable) (type : String) : BonusRule :=
  (table.rules.find? type).getD table.unknown

/-- Whether contributions of a type add up. -/
def addsUp (table : BonusTable) (type : String) : Bool :=
  (table.rule type).stacking = .additive

/-- The types with a rule of their own by which they add up, in order. -/
def stackingTypes (table : BonusTable) : List String :=
  (table.rules.toList.filter fun entry => entry.2.stacking = .additive).map Prod.fst

/-- The rules of the default table. -/
def defaultRules : List (String × BonusRule) :=
  [BonusType.base, BonusType.replacement, BonusType.untyped].map (·, BonusRule.additive) ++
    [(BonusType.dodge, BonusRule.additive.withoutFlatFooted),
      (BonusType.dexterity, BonusRule.highest.withoutFlatFooted)] ++
    [BonusType.armor, BonusType.shield, BonusType.naturalArmor].map
      (·, BonusRule.highest.withoutTouch) ++
    ["CIRCUMSTANCE", BonusType.enhancement, "MORALE", "LUCK", "INSIGHT", "COMPETENCE", "PROFANE",
      "DIVINE", "SACRED", "RESISTANCE", "DEFLECTION", "RACIAL", BonusType.size].map
      (·, BonusRule.highest)

/-- The default table. -/
def default : BonusTable := ⟨SortedMap.ofList defaultRules, BonusRule.highest⟩

instance : Inhabited BonusTable := ⟨default⟩

def toJson (table : BonusTable) : Json :=
  .object [("rules", .ofMap BonusRule.toJson table.rules), ("unknown", table.unknown.toJson)]

/-- The table as it is written. -/
def layout (table : BonusTable) : Json :=
  .obj [("rules", .ofMap BonusRule.layout table.rules), ("unknown", table.unknown.layout)]

def ofJson? : Json → Option BonusTable :=
  Json.record? fun members => do
    let rules ← members.required "rules" (Json.map? BonusRule.ofJson?)
    let unknown ← members.defaulted "unknown" BonusRule.ofJson? BonusRule.highest
    return ⟨rules, unknown⟩

end BonusTable

end CharacterSheet
