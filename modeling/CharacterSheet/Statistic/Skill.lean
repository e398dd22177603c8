import CharacterSheet.Statistic.Basic

/-!
# Skills of the sheet

A skill has the modifier of its ability and its effective ranks as base
values.  A change to a skill also applies to the members of a family if it
names their parent.
-/

namespace CharacterSheet

/-- A skill of the sheet. -/
structure SkillStat where
  skill : Skill
  ranks : Float
  stat : Stat

namespace SkillStat

def members (skill : SkillStat) : Members :=
  skill.skill.members ++ [("ranks", .ofFloat skill.ranks), ("stat", skill.stat.toJson)]

/-- The values published for a skill. -/
def published (skill : SkillStat) : List (String × Float) :=
  [("skills." ++ skill.skill.id ++ ".total", skill.stat.total),
    ("skills." ++ skill.skill.id ++ ".ranks", skill.ranks)]

end SkillStat

/-- A single skill of the sheet, or a family. -/
inductive SkillGroup where
  | simple (skill : SkillStat)
  | parent (id name : String) (children : List SkillStat)

namespace SkillGroup

/-- The skills of the group. -/
def skills : SkillGroup → List SkillStat
  | simple skill => [skill]
  | parent _ _ children => children

def toJson : SkillGroup → Json
  | simple skill => .object (("type", .str "simple") :: skill.members)
  | parent id name children =>
    .object [("type", .str "parent"), ("uniqueId", .str id), ("name", .str name),
      ("subSkills", .ofList (fun skill => .object skill.members) children)]

end SkillGroup

namespace Calculation

/-- Whether a change affects a skill, which may belong to the family of a
parent. -/
def affectsSkill (skill : Skill) (parent : Option String) : ChangeTarget → Bool
  | .skill target => target == skill.id || parent == some target
  | .abilitySkills ability => ability == skill.ability
  | _ => false

/-- Calculate one skill. -/
def skillStat (calculation : Calculation) (index : Index) (parent : Option String)
    (skill : Skill) : SkillStat :=
  let ranks := (calculation.character.ranks skill.id).effective
  { skill, ranks
    stat := calculation.resolve
      (abilitySource index skill.ability :: Source.base ranks "Ranks" ::
        calculation.sources index (affectsSkill skill parent)) }

/-- Calculate the skills of a definition. -/
def skillGroup (calculation : Calculation) (index : Index) : SkillDefinition → SkillGroup
  | .simple skill => .simple (calculation.skillStat index none skill)
  | .parent id name children =>
    .parent id name (children.map (calculation.skillStat index (some id)))

/-- Calculate all skills. -/
def skills (calculation : Calculation) (index : Index) : PhaseResult (List SkillGroup) :=
  let groups := calculation.character.skills.map (calculation.skillGroup index)
  .of groups ((groups.flatMap SkillGroup.skills).flatMap (·.published))

end Calculation

end CharacterSheet
