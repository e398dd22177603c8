import CharacterSheet.Proofs.Sheet.Publishing
import CharacterSheet.Proofs.Statistic.VariableFixpoint

/-!
# Keys in the namespace of custom variables

Only two phases publish keys in the namespace of custom variables: that of the
variables, and that of spells, where the name of a variable can begin like a
key.  All other phases publish keys that begin otherwise, as the levels do.
Which keys the phase of the variables publishes does not depend on the index.
-/

namespace CharacterSheet

namespace VariableId

/-- The first letters of a key tell that it is not in the namespace of custom
variables. -/
def LiesOutside (key : String) : Prop :=
  key.toList.take 2 ≠ ['c', 'u']

instance (key : String) : Decidable (LiesOutside key) :=
  inferInstanceAs (Decidable (_ ≠ _))

theorem LiesOutside.ne_indexKey {key : String} (outside : LiesOutside key) (id : VariableId) :
    key ≠ id.indexKey := by
  rintro rfl
  refine outside ?_
  rw [indexKey, String.toList_append, String.toList_append]
  rfl

/-- What follows the first two letters does not matter. -/
theorem liesOutside_append {start : String} (outside : LiesOutside start)
    (long : 2 ≤ start.toList.length) (rest : String) : LiesOutside (start ++ rest) := by
  rw [LiesOutside, String.toList_append, List.take_append_of_le_length long]
  exact outside

theorem liesOutside_between {start : String} (outside : LiesOutside start)
    (long : 2 ≤ start.toList.length) (name ending : String) :
    LiesOutside (start ++ name ++ ending) := by
  rw [String.append_assoc]
  exact liesOutside_append outside long _

end VariableId

open VariableId (LiesOutside liesOutside_append liesOutside_between)

/-- An update of keys that lie outside sets no variable. -/
theorem Index.Update.get?_ofList_indexKey {entries : List (String × Float)}
    (outside : ∀ key ∈ entries.map Prod.fst, LiesOutside key) (id : VariableId) :
    (ofList entries).get? id.indexKey = none := by
  rw [← Option.not_isSome_iff_eq_none, isSome_get?_ofList_iff]
  exact fun member => (outside _ member).ne_indexKey id rfl

namespace Calculation

/-- A phase publishes a key on every index. -/
def Publishes (calculation : Calculation) (phase : Phase) (key : String) : Prop :=
  ∀ index, ((calculation.published index phase).get? key).isSome = true

/-- A phase publishes a key on no index. -/
def Withholds (calculation : Calculation) (phase : Phase) (key : String) : Prop :=
  ∀ index, (calculation.published index phase).get? key = none

variable (calculation : Calculation)

/-- The phase of custom variables publishes the keys of the variables that are
declared, whatever their values. -/
theorem isSome_get?_customVariables_iff (index : Index) (key : String) :
    ((calculation.published index .customVariables).get? key).isSome = true ↔
      key ∈ calculation.sortedDeclarations.flatMap VariableDefinition.publishedKeys := by
  have keys : ((calculation.evaluateInOrder index calculation.sortedDeclarations).flatMap
      (·.published)).map Prod.fst =
        calculation.sortedDeclarations.flatMap VariableDefinition.publishedKeys :=
    map_fst_published _
  rw [← keys]
  exact Index.Update.isSome_get?_ofList_iff

theorem publishes_or_withholds_customVariables (key : String) :
    calculation.Publishes .customVariables key ∨ calculation.Withholds .customVariables key := by
  by_cases listed : key ∈ calculation.sortedDeclarations.flatMap VariableDefinition.publishedKeys
  · exact Or.inl fun index => (calculation.isSome_get?_customVariables_iff index key).mpr listed
  · refine Or.inr fun index => Option.not_isSome_iff_eq_none.mp fun published => ?_
    exact listed ((calculation.isSome_get?_customVariables_iff index key).mp published)

/-- Only the phases of custom variables and of spells publish keys of custom
variables. -/
theorem withholds_indexKey (id : VariableId) {phase : Phase}
    (notVariables : phase ≠ .customVariables) (notSpells : phase ≠ .spellTracks) :
    calculation.Withholds phase id.indexKey := by
  intro index
  cases phase with
  | customVariables => exact absurd rfl notVariables
  | spellTracks => exact absurd rfl notSpells
  | attacks => rfl
  | size | initiative | hitPoints | baseAttackBonus | armorClass =>
    refine Index.Update.get?_ofList_indexKey ?_ id
    simp only [List.map_cons, List.map_nil, List.forall_mem_cons]
    decide
  | abilityScores =>
    refine Index.Update.get?_ofList_indexKey ?_ id
    simp only [List.map_flatMap, List.forall_mem_flatMap]
    intro stat _
    have keys : ∀ name ending : String, LiesOutside ("ability." ++ name ++ ending) :=
      liesOutside_between (by decide) (by decide)
    simp [AbilityStat.published, Ability.scoreKey, Ability.modifierKey, keys]
  | speed =>
    have keys : ∀ (mode : SpeedMode) (ending : String), LiesOutside (mode.keyStart ++ ending) := by
      intro mode ending
      cases mode <;> exact liesOutside_append (by decide) (by decide) ending
    refine Index.Update.get?_ofList_indexKey ?_ id
    simp only [List.map_append, List.map_map, List.forall_mem_append, List.forall_mem_map]
    exact ⟨fun _ _ => keys _ _, fun _ _ => keys _ _⟩
  | savingThrows =>
    refine Index.Update.get?_ofList_indexKey ?_ id
    simp only [List.map_flatMap, List.forall_mem_flatMap]
    intro entry _
    have keys : ∀ name ending : String, LiesOutside ("savingThrow." ++ name ++ ending) :=
      liesOutside_between (by decide) (by decide)
    simp [SaveStat.published, keys]
  | skills =>
    refine Index.Update.get?_ofList_indexKey ?_ id
    simp only [List.map_flatMap, List.forall_mem_flatMap]
    intro group _
    have keys : ∀ name ending : String, LiesOutside ("skills." ++ name ++ ending) :=
      liesOutside_between (by decide) (by decide)
    simp [SkillStat.published, keys]
  | resources =>
    refine Index.Update.get?_ofList_indexKey ?_ id
    simp only [List.map_flatMap, List.forall_mem_flatMap]
    intro resource _
    have keys : ∀ (resource : Resource) (part : String), LiesOutside (resource.key part) := by
      intro resource part
      rw [Resource.key, String.append_assoc]
      exact liesOutside_between (by decide) (by decide) _ _
    simp [ResourceStat.published, Resource.propertyVariable, keys]

end Calculation

/-- A key stays without a value as long as only phases run that do not publish
it. -/
theorem Progress.get?_runAll_eq_none {calculation : Calculation} {progress : Progress}
    {key : String} (absent : progress.index.get? key = none) {phases : List Phase}
    (silent : ∀ phase ∈ phases, calculation.Withholds phase key) :
    (runAll calculation progress phases).index.get? key = none := by
  induction phases generalizing progress with
  | nil => exact absent
  | cons phase rest inductionHypothesis =>
    have parts := List.forall_mem_cons.mp silent
    refine inductionHypothesis ?_ parts.2
    rw [index_run, Index.get?_apply, absent, parts.1, Option.map_none, Option.none_or]

end CharacterSheet
