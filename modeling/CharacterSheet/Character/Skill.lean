import CharacterSheet.Character.Keys
import CharacterSheet.Numeric.Rounding

/-!
# Skills

A skill is tied to an ability.  A family of skills has a common parent, which
has no score of its own.  Ranks in a skill are bought whole or half.
-/

namespace CharacterSheet

/-- A skill that has a score. -/
structure Skill where
  id : String
  name : String
  ability : Ability
  deriving DecidableEq, Inhabited

namespace Skill

def members (skill : Skill) : Members :=
  [("uniqueId", .str skill.id), ("name", .str skill.name), ("ability", skill.ability.toJson)]

def ofMembers? (members : Members) : Option Skill := do
  let id ← members.required "uniqueId" Json.string?
  let name ← members.required "name" Json.string?
  let ability ← members.required "ability" Ability.ofJson?
  return ⟨id, name, ability⟩

def toJson (skill : Skill) : Json :=
  .object skill.members

def ofJson? : Json → Option Skill := Json.record? ofMembers?

end Skill

/-- A single skill, or the parent of a family with its members. -/
inductive SkillDefinition where
  | simple (skill : Skill)
  | parent (id name : String) (children : List Skill)
  deriving DecidableEq, Inhabited

namespace SkillDefinition

def toJson : SkillDefinition → Json
  | simple skill => .object (("type", .str "simple") :: skill.members)
  | parent id name children =>
    .object [("type", .str "parent"), ("uniqueId", .str id), ("name", .str name),
      ("subSkills", .ofList Skill.toJson children)]

def ofJson? : Json → Option SkillDefinition :=
  Json.record? fun members => do
    match ← members.required "type" Json.string? with
    | "simple" => simple <$> Skill.ofMembers? members
    | "parent" =>
      let id ← members.required "uniqueId" Json.string?
      let name ← members.required "name" Json.string?
      let children ← members.required "subSkills" (Json.list? Skill.ofJson?)
      return parent id name children
    | _ => none

end SkillDefinition

/-- The ranks bought in a skill. -/
structure SkillRanks where
  whole : Float
  half : Float
  deriving DecidableEq

namespace SkillRanks

/-- No ranks. -/
def zero : SkillRanks := ⟨0, 0⟩

/-- What the ranks count together, rounded down. -/
def effective (ranks : SkillRanks) : Float :=
  Numeric.floor (ranks.whole + ranks.half / 2)

def toJson (ranks : SkillRanks) : Json :=
  .object [("ranks", .ofFloat ranks.whole), ("halfRanks", .ofFloat ranks.half)]

def ofJson? : Json → Option SkillRanks :=
  Json.record? fun members => do
    let whole ← members.defaulted "ranks" Json.float? 0
    let half ← members.defaulted "halfRanks" Json.float? 0
    return ⟨whole, half⟩

end SkillRanks

end CharacterSheet
