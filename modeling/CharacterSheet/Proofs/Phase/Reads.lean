import CharacterSheet.Proofs.Bonus.Incremental
import CharacterSheet.Proofs.Numeric.Zero
import CharacterSheet.Proofs.Phase.Namespace
import CharacterSheet.Proofs.Statistic.KeyFree

/-!
# What phases read

If content names no key, a phase reads only the keys that its own rules name.
Each of these is published by a phase that it requires or, like the variable of
an undefined number of spells, by no other phase at all.  Indexes that hold the
same numbers there, up to the sign of zero, give the same result, again up to
the sign of zero.  That sign shows only where a number is handed on as it is:
contributions of zero are dropped, whatever their sign.
-/

namespace CharacterSheet

/-! ## The sign of zero in contributions -/

namespace Source

/-- The same contribution, but not of a negative zero. -/
def unsigned (source : Source Float) : Source Float :=
  { source with amount := Numeric.unsigned source.amount }

end Source

namespace Breakdown

theorem contributes_unsigned (amount : Float) :
    Amount.contributes (Numeric.unsigned amount) = Amount.contributes amount := by
  unfold Numeric.unsigned
  split
  · rename_i zero
    change (!((0 : Float) == 0) && _) = (!(amount == 0) && _)
    rw [zero, Numeric.beq_self rfl]
    rfl
  · rfl

theorem contributing_unsigned (sources : List (Source Float)) :
    contributing (sources.map Source.unsigned) = contributing sources := by
  have dropped : (Amount.contributes ·.amount) ∘ Source.unsigned =
      fun source : Source Float => Amount.contributes source.amount :=
    funext fun source => contributes_unsigned source.amount
  rw [contributing, contributing, List.filter_map, List.map_map, dropped]
  apply List.map_congr_left
  intro source member
  have contributes := (List.mem_filter.mp member).2
  have nonzero : ¬ (source.amount == 0) = true := by
    intro zero
    change (!(source.amount == 0) && _) = true at contributes
    rw [zero] at contributes
    cases contributes
  have same : source.unsigned = source := by
    rw [Source.unsigned, Numeric.unsigned, if_neg nonzero]
  rw [Function.comp_apply, same]

end Breakdown

namespace Calculation

/-- A statistic does not depend on the signs of zeros among its
contributions. -/
theorem resolve_congr (calculation : Calculation) {first second : List (Source Float)}
    (same : first.map Source.unsigned = second.map Source.unsigned) :
    calculation.resolve first = calculation.resolve second := by
  have kept : Breakdown.contributing first = Breakdown.contributing second := by
    rw [← Breakdown.contributing_unsigned first, same, Breakdown.contributing_unsigned]
  exact Stat.ofSources_congr kept

theorem resolve_middle_congr (calculation : Calculation) {first second : Source Float}
    (same : first.unsigned = second.unsigned) (before after : List (Source Float)) :
    calculation.resolve (before ++ first :: after) =
      calculation.resolve (before ++ second :: after) := by
  apply resolve_congr
  rw [List.map_append, List.map_append, List.map_cons, List.map_cons, same]

theorem resolve_head_congr (calculation : Calculation) {first second : Source Float}
    (same : first.unsigned = second.unsigned) (after : List (Source Float)) :
    calculation.resolve (first :: after) = calculation.resolve (second :: after) :=
  calculation.resolve_middle_congr same [] after

/-- The same goes for a selection of the contributions that does not look at
the amounts. -/
theorem resolve_filter_congr (calculation : Calculation) {first second : List (Source Float)}
    {keep : Source Float → Bool} (ignores : ∀ source, keep source.unsigned = keep source)
    (same : first.map Source.unsigned = second.map Source.unsigned) :
    calculation.resolve (first.filter keep) = calculation.resolve (second.filter keep) := by
  apply resolve_congr
  have commutes : ∀ sources : List (Source Float), (sources.filter keep).map Source.unsigned =
      (sources.map Source.unsigned).filter keep := by
    intro sources
    rw [List.filter_map, show keep ∘ Source.unsigned = keep from funext ignores]
  rw [commutes, commutes, same]

end Calculation

namespace Index

/-- Two indexes hold the same numbers under some keys, up to the sign of
zero. -/
def ResembleOn (keys : List String) (first second : Index) : Prop :=
  ∀ key ∈ keys, (first.get? key).map Numeric.unsigned = (second.get? key).map Numeric.unsigned

theorem unsigned_getD (found : Option Float) (otherwise : Float) :
    Numeric.unsigned (found.getD otherwise) =
      (found.map Numeric.unsigned).getD (Numeric.unsigned otherwise) := by
  cases found <;> rfl

theorem ResembleOn.value {keys : List String} {first second : Index}
    (resemble : ResembleOn keys first second) {key : String} (member : key ∈ keys) :
    Numeric.unsigned (first.value key) = Numeric.unsigned (second.value key) := by
  rw [Index.value, Index.value, unsigned_getD, unsigned_getD, resemble key member]

/-- The same values, but no negative zero. -/
def unsigned (index : Index) : Index :=
  ⟨index.values.mapValues fun _ => Numeric.unsigned⟩

def Update.unsigned (update : Update) : Update :=
  ⟨update.values.mapValues fun _ => Numeric.unsigned⟩

theorem Update.unsigned_ofList (entries : List (String × Float)) :
    (ofList entries).unsigned =
      ofList (entries.map fun entry => (entry.1, Numeric.unsigned entry.2)) :=
  congrArg Update.mk (SortedMap.mapValues_ofList _ entries)

end Index

/-! ## The keys of a phase and where they come from -/

theorem Ability.mem_all (ability : Ability) : ability ∈ all := by
  cases ability <;> decide

/-- The variables whose values count at a class level when the tables of some
spell tracks are gone through. -/
def SpellTracks.variablesRead (tracks : SpellTracks) (classLevel : Nat) : List VariableId :=
  (tracks.knownCounts LevelTable.withoutEmpty classLevel).map
      (fun entry => tracks.knownVariable entry.1) ++
    (tracks.tracks.flatMap fun track => track.slots.withoutEmpty classLevel).map
      fun entry => tracks.slotVariable entry.1

namespace Calculation

/-- The variables whose values are read back for the spells of all classes. -/
def variablesRead (calculation : Calculation) : List VariableId :=
  calculation.compiled.spellTracks.flatMap fun tracks =>
    tracks.variablesRead (calculation.character.classLevel tracks.classId)

/-- The keys that the rules of a phase name. -/
def reads (calculation : Calculation) : Phase → List String
  | .size | .abilityScores | .speed | .customVariables | .resources => []
  | .initiative => [Ability.dexterity.modifierKey]
  | .hitPoints => [Ability.constitution.modifierKey]
  | .baseAttackBonus =>
    [Ability.strength.modifierKey, Ability.dexterity.modifierKey, "size.modifier",
      "size.grappleModifier"]
  | .savingThrows | .skills => Ability.all.map Ability.modifierKey
  | .armorClass => [Ability.dexterity.modifierKey, "size.modifier"]
  | .spellTracks => calculation.variablesRead.map VariableId.indexKey
  | .attacks =>
    [Ability.strength.modifierKey, WeaponKind.melee.attackBaseKey,
      WeaponKind.ranged.attackBaseKey]

variable {calculation : Calculation}

theorem publishes_modifierKey (ability : Ability) :
    calculation.Publishes .abilityScores ability.modifierKey := by
  intro index
  apply SortedMap.isSome_find?_ofList
  refine List.mem_map.mpr ⟨_, List.mem_flatMap.mpr ⟨calculation.abilityStat index ability, ?_,
    List.mem_cons_of_mem _ List.mem_cons_self⟩, rfl⟩
  exact List.mem_map_of_mem ability.mem_all

theorem publishes_sizeModifier : calculation.Publishes .size "size.modifier" :=
  fun _ => SortedMap.isSome_find?_ofList (by simp)

theorem publishes_grappleModifier : calculation.Publishes .size "size.grappleModifier" :=
  fun _ => SortedMap.isSome_find?_ofList (by simp)

theorem publishes_attackBaseKey (kind : WeaponKind) :
    calculation.Publishes .baseAttackBonus kind.attackBaseKey := by
  intro index
  apply SortedMap.isSome_find?_ofList
  cases kind <;> simp

/-- Every declared variable is published under its key. -/
theorem publishes_indexKey {id : VariableId} (declared : id ∈ calculation.declaredIds) :
    calculation.Publishes .customVariables id.indexKey := by
  intro index
  rcases List.mem_map.mp declared with ⟨definition, member, rfl⟩
  apply SortedMap.isSome_find?_ofList
  refine (map_fst_published calculation.sortedDeclarations).symm ▸ List.mem_flatMap.mpr
    ⟨definition, (perm_evaluated calculation).mem_iff.mpr member, List.mem_cons_self⟩

/-- Every key that a phase reads is published by a phase that it requires, or by
no other phase. -/
theorem publishes_or_withholds_of_mem_reads {phase : Phase} {key : String}
    (member : key ∈ calculation.reads phase) :
    (∃ required ∈ phase.requires, calculation.Publishes required key) ∨
      ∀ other ≠ phase, calculation.Withholds other key := by
  cases phase with
  | size | abilityScores | speed | customVariables | resources => cases member
  | initiative | hitPoints =>
    rw [List.mem_singleton.mp member]
    exact Or.inl ⟨.abilityScores, List.mem_cons_self, publishes_modifierKey _⟩
  | savingThrows | skills =>
    rcases List.mem_map.mp member with ⟨ability, _, rfl⟩
    exact Or.inl ⟨.abilityScores, List.mem_cons_self, publishes_modifierKey _⟩
  | baseAttackBonus =>
    simp only [reads, List.mem_cons, List.not_mem_nil, or_false] at member
    rcases member with rfl | rfl | rfl | rfl
    · exact Or.inl ⟨.abilityScores, by decide, publishes_modifierKey _⟩
    · exact Or.inl ⟨.abilityScores, by decide, publishes_modifierKey _⟩
    · exact Or.inl ⟨.size, by decide, publishes_sizeModifier⟩
    · exact Or.inl ⟨.size, by decide, publishes_grappleModifier⟩
  | armorClass =>
    simp only [reads, List.mem_cons, List.not_mem_nil, or_false] at member
    rcases member with rfl | rfl
    · exact Or.inl ⟨.abilityScores, by decide, publishes_modifierKey _⟩
    · exact Or.inl ⟨.size, by decide, publishes_sizeModifier⟩
  | spellTracks =>
    rcases List.mem_map.mp member with ⟨id, -, rfl⟩
    rcases calculation.publishes_or_withholds_customVariables id.indexKey with
      published | withheld
    · exact Or.inl ⟨.customVariables, List.mem_cons_self, published⟩
    · refine Or.inr fun other different => ?_
      by_cases isVariables : other = .customVariables
      · exact isVariables ▸ withheld
      · exact calculation.withholds_indexKey id isVariables different
  | attacks =>
    simp only [reads, List.mem_cons, List.not_mem_nil, or_false] at member
    rcases member with rfl | rfl | rfl
    · exact Or.inl ⟨.abilityScores, by decide, publishes_modifierKey _⟩
    · exact Or.inl ⟨.baseAttackBonus, by decide, publishes_attackBaseKey .melee⟩
    · exact Or.inl ⟨.baseAttackBonus, by decide, publishes_attackBaseKey .ranged⟩

/-! ## The results of a phase -/

theorem unsigned_abilitySource {first second : Index} {ability : Ability}
    (same : Numeric.unsigned (first.value ability.modifierKey) =
      Numeric.unsigned (second.value ability.modifierKey)) :
    (abilitySource first ability).unsigned = (abilitySource second ability).unsigned := by
  rw [abilitySource, abilitySource, Source.unsigned, Source.unsigned]
  dsimp only [Source.base, Source.of]
  rw [same]

theorem unsigned_of {first second : Float} (same : Numeric.unsigned first = Numeric.unsigned second)
    (type name id : String) :
    (Source.of first type name id).unsigned = (Source.of second type name id).unsigned := by
  rw [Source.unsigned, Source.unsigned]
  dsimp only [Source.of]
  rw [same]

variable (free : calculation.KeyFree) {first second : Index}

include free

theorem size_congr : calculation.size first = calculation.size second := by
  rw [Calculation.size, Calculation.size, free.sourcesOf first second]

theorem abilities_congr : calculation.abilities first = calculation.abilities second := by
  have stat : calculation.abilityStat first = calculation.abilityStat second := by
    funext ability
    rw [abilityStat, abilityStat, free.sourcesOf first second]
  rw [Calculation.abilities, Calculation.abilities, stat]

theorem speeds_congr : calculation.speeds first = calculation.speeds second := by
  rw [Calculation.speeds, Calculation.speeds, free.sourcesOf first second]

theorem initiative_congr (resemble : Index.ResembleOn (calculation.reads .initiative) first second) :
    (calculation.initiative first).value = (calculation.initiative second).value ∧
      (calculation.initiative first).update.unsigned =
        (calculation.initiative second).update.unsigned := by
  have dexterity := resemble.value List.mem_cons_self
  have value : (calculation.initiative first).value = (calculation.initiative second).value := by
    rw [Calculation.initiative, Calculation.initiative, free.sourcesOf first second,
      calculation.resolve_head_congr (unsigned_abilitySource dexterity)]
    rfl
  refine ⟨value, ?_⟩
  have published : ∀ index, (calculation.initiative index).update.unsigned =
      Index.Update.ofList
        [("initiative.base", Numeric.unsigned (index.value Ability.dexterity.modifierKey)),
          ("initiative.total", Numeric.unsigned (calculation.initiative index).value.total)] :=
    fun _ => Index.Update.unsigned_ofList _
  rw [published, published, value, dexterity]

theorem hitPoints_congr (resemble : Index.ResembleOn (calculation.reads .hitPoints) first second) :
    calculation.hitPoints first = calculation.hitPoints second := by
  have constitution := Numeric.unsigned_mul (Float.ofNat calculation.character.level)
    (resemble.value List.mem_cons_self)
  rw [Calculation.hitPoints, Calculation.hitPoints, free.sourcesOf first second]
  dsimp only [Source.base]
  rw [calculation.resolve_middle_congr (unsigned_of constitution _ _ _)]

theorem baseAttackBonus_congr
    (resemble : Index.ResembleOn (calculation.reads .baseAttackBonus) first second) :
    calculation.baseAttackBonus first = calculation.baseAttackBonus second := by
  have base : ∀ (total : Float) (ability : Ability) (sizeKey : String),
      ability.modifierKey ∈ calculation.reads .baseAttackBonus →
      sizeKey ∈ calculation.reads .baseAttackBonus →
        calculation.attackBase first total ability sizeKey =
          calculation.attackBase second total ability sizeKey := by
    intro total ability sizeKey abilityRead sizeRead
    apply resolve_congr
    simp only [List.map_cons, List.map_nil]
    rw [unsigned_abilitySource (resemble.value abilityRead),
      unsigned_of (resemble.value sizeRead)]
  rw [Calculation.baseAttackBonus, Calculation.baseAttackBonus, free.sourcesOf first second]
  dsimp only
  rw [base _ .strength "size.modifier" (by simp [reads]) (by simp [reads]),
    base _ .dexterity "size.modifier" (by simp [reads]) (by simp [reads]),
    base _ .strength "size.grappleModifier" (by simp [reads]) (by simp [reads])]

theorem savingThrows_congr
    (resemble : Index.ResembleOn (calculation.reads .savingThrows) first second) :
    calculation.savingThrows first = calculation.savingThrows second := by
  have stat : calculation.saveStat first = calculation.saveStat second := by
    funext save
    have ability := resemble.value (List.mem_map_of_mem (Ability.mem_all save.ability))
    rw [saveStat, saveStat, free.sources first second,
      calculation.resolve_middle_congr (unsigned_abilitySource ability)]
  rw [Calculation.savingThrows, Calculation.savingThrows, stat]

theorem skills_congr (resemble : Index.ResembleOn (calculation.reads .skills) first second) :
    calculation.skills first = calculation.skills second := by
  have stat : calculation.skillStat first = calculation.skillStat second := by
    funext parent skill
    have ability := resemble.value (List.mem_map_of_mem (Ability.mem_all skill.ability))
    rw [skillStat, skillStat, free.sources first second,
      calculation.resolve_head_congr (unsigned_abilitySource ability)]
  have group : calculation.skillGroup first = calculation.skillGroup second := by
    funext definition
    cases definition <;> rw [skillGroup, skillGroup, stat]
  rw [Calculation.skills, Calculation.skills, group]

theorem armorClass_congr (resemble : Index.ResembleOn (calculation.reads .armorClass) first second) :
    calculation.armorClass first = calculation.armorClass second := by
  have dexterity : Numeric.unsigned (armorDexterity calculation.character first) =
      Numeric.unsigned (armorDexterity calculation.character second) := by
    have modifier := resemble.value List.mem_cons_self
    unfold armorDexterity
    cases (calculation.character.equipped? ItemKind.armor?).bind (·.2.maxDexterity) with
    | none => exact modifier
    | some limit => exact Numeric.unsigned_minimum limit modifier
  have size := resemble.value (List.mem_cons_of_mem _ List.mem_cons_self)
  have sources : ∀ natural, (calculation.armorClassSources first natural).map Source.unsigned =
      (calculation.armorClassSources second natural).map Source.unsigned := by
    intro natural
    rw [armorClassSources, armorClassSources, free.sourcesOf first second]
    simp only [List.map_append, List.map_cons, List.map_nil]
    rw [unsigned_of dexterity, unsigned_of size]
  rw [Calculation.armorClass, Calculation.armorClass, free.sourcesOf first second]
  dsimp only
  rw [calculation.resolve_congr (sources _), calculation.resolve_filter_congr _ (sources _),
    calculation.resolve_filter_congr _ (sources _)]
  · exact fun _ => rfl
  · exact fun _ => rfl

theorem attacks_congr (resemble : Index.ResembleOn (calculation.reads .attacks) first second) :
    calculation.attacks first = calculation.attacks second := by
  have strength := unsigned_abilitySource (resemble.value List.mem_cons_self)
  have stat : calculation.attackStat first = calculation.attackStat second := by
    funext item weapon
    have base : Numeric.unsigned (first.value weapon.kind.attackBaseKey) =
        Numeric.unsigned (second.value weapon.kind.attackBaseKey) :=
      resemble.value (by cases weapon.kind <;> simp [reads])
    have damage : (damageStrength first weapon.kind).map Source.unsigned =
        (damageStrength second weapon.kind).map Source.unsigned := by
      cases weapon.kind with
      | melee => exact congrArg (List.cons · []) strength
      | ranged => rfl
    have damageBonus : ∀ others,
        calculation.resolve
            (enhancementSource item weapon :: damageStrength first weapon.kind ++ others) =
          calculation.resolve
            (enhancementSource item weapon :: damageStrength second weapon.kind ++ others) := by
      intro others
      apply resolve_congr
      rw [List.map_append, List.map_append, List.map_cons, List.map_cons, damage]
    rw [attackStat, attackStat, free.sources first second, free.contextualSources first second]
    dsimp only [Source.base]
    rw [calculation.resolve_head_congr (unsigned_of base _ _ _), damageBonus]
  rw [Calculation.attacks, Calculation.attacks, stat]

end Calculation

end CharacterSheet
