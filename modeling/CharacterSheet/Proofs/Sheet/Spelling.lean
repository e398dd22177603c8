import CharacterSheet.Proofs.Sheet.Turn

/-!
# The two spellings of a custom variable

A custom variable is published under its name and under its key in the
namespace of custom variables.  Both keys are set in one update, where the last
value under a key replaces those before it and nothing is reported.  So if the
name of one variable is the key of another one, the two spellings of the latter
can come apart.  They agree, unless a conflict is reported, exactly if the last
variables that go by the two keys have the same total.
-/

namespace CharacterSheet

namespace VariableId

/-- The same number is found under both keys of a variable. -/
def SameUnderBoth (id : VariableId) (find? : String → Option Float) : Prop :=
  ((find? id.indexKey).any fun first => (find? id.name).any (first == ·)) = true

instance (id : VariableId) (find? : String → Option Float) : Decidable (id.SameUnderBoth find?) :=
  inferInstanceAs (Decidable (_ = true))

/-- What is found under both keys is the same exactly if what is equal to it
is. -/
theorem sameUnderBoth_congr {id : VariableId} {find? other? : String → Option Float}
    (equal : ∀ key ∈ [id.indexKey, id.name], ∃ number other,
      find? key = some number ∧ other? key = some other ∧ (number == other) = true) :
    id.SameUnderBoth find? ↔ id.SameUnderBoth other? := by
  rcases equal id.indexKey List.mem_cons_self with ⟨first, other, found, foundOther, same⟩
  rcases equal id.name (List.mem_cons_of_mem _ List.mem_cons_self) with
    ⟨second, another, foundName, foundNameOther, sameName⟩
  rw [SameUnderBoth, SameUnderBoth, found, foundName, foundOther, foundNameOther]
  exact Bool.eq_iff_iff.mp (Numeric.beq_congr same sameName)

end VariableId

namespace VariableStat

/-- The total of the last of some variables to go by a key, made finite. -/
def lastTotal? (calculated : List VariableStat) (key : String) : Option Float :=
  ((calculated.flatMap (·.published)).reverse.lookup key).map Numeric.orZero

end VariableStat

namespace Sheet

/-- The same number stands under both keys of a variable, or the sheet warns of
a conflict about one of them. -/
def SpellingsAgree (sheet : Sheet) (id : VariableId) : Prop :=
  id.SameUnderBoth sheet.index.get? ∨ sheet.WarnsOf id.indexKey ∨ sheet.WarnsOf id.name

instance (sheet : Sheet) (id : VariableId) : Decidable (sheet.SpellingsAgree id) :=
  inferInstanceAs (Decidable (_ ∨ _ ∨ _))

section Valid

variable {character : Character} {config : Config} (valid : config.validate = .ok ())

include valid

/-- The sheet lists every variable once. -/
theorem nodup_customVariables :
    ((calculate character config).statistics.customVariables.map VariableStat.id).Nodup := by
  rw [customVariables_calculate valid, Calculation.map_id_evaluateInOrder]
  exact Calculation.nodup_id_sortedDeclarations _

/-- Under every key the last total of a variable that goes by it stands on the
sheet, unless the sheet warns of a conflict about the key. -/
theorem showsUnder_of_lastTotal? {key : String} {total : Float}
    (last : VariableStat.lastTotal? (calculate character config).statistics.customVariables key =
      some total) : (calculate character config).ShowsUnder key total := by
  rcases Option.map_eq_some_iff.mp last with ⟨set, found, rfl⟩
  have published : ((calculation character config).published
      (atTurn character config .customVariables).index .customVariables).get? key = some set := by
    rw [← found, customVariables_calculate valid]
    exact SortedMap.find?_ofList _ key
  exact showsUnder_of_published valid published

variable {calculated : VariableStat}
  (member : calculated ∈ (calculate character config).statistics.customVariables)

include member

theorem exists_lastTotal? {key : String}
    (either : key ∈ [calculated.id.indexKey, calculated.id.name]) :
    ∃ total,
      VariableStat.lastTotal? (calculate character config).statistics.customVariables key =
          some total ∧
        (calculate character config).ShowsUnder key total := by
  have listed : key ∈ ((calculate character config).statistics.customVariables.flatMap
      (·.published)).map Prod.fst := by
    rw [List.map_flatMap]
    exact List.mem_flatMap.mpr ⟨calculated, member, either⟩
  rcases Option.isSome_iff_exists.mp (SortedMap.isSome_find?_ofList listed) with ⟨set, found⟩
  rw [SortedMap.find?_ofList] at found
  have last : VariableStat.lastTotal?
      (calculate character config).statistics.customVariables key = some (Numeric.orZero set) := by
    rw [VariableStat.lastTotal?, found, Option.map_some]
  exact ⟨_, last, showsUnder_of_lastTotal? valid last⟩

/-- If no other variable goes by a key of it, the last total under the key is
that of the variable. -/
theorem lastTotal?_of_only {key : String}
    (either : key ∈ [calculated.id.indexKey, calculated.id.name])
    (only : ∀ other ∈ (calculate character config).statistics.customVariables,
      key ∈ [other.id.indexKey, other.id.name] → other.id = calculated.id) :
    VariableStat.lastTotal? (calculate character config).statistics.customVariables key =
      some (Numeric.orZero calculated.stat.total) := by
  have goesBy_iff : ∀ (other : VariableStat) (total : Float), (key, total) ∈ other.published ↔
      key ∈ [other.id.indexKey, other.id.name] ∧ total = other.stat.total := by
    intro other total
    simp [VariableStat.published, or_and_right]
  have itself : (key, calculated.stat.total) ∈
      (calculate character config).statistics.customVariables.flatMap (·.published) :=
    List.mem_flatMap.mpr ⟨calculated, member, (goesBy_iff calculated _).mpr ⟨either, rfl⟩⟩
  rw [VariableStat.lastTotal?, ← SortedMap.find?_ofList,
    SortedMap.find?_ofList_of_agree itself fun total set => ?_, Option.map_some]
  rcases List.mem_flatMap.mp set with ⟨other, among, goesBy⟩
  rcases (goesBy_iff other total).mp goesBy with ⟨keyOfOther, sameTotal⟩
  have same : other = calculated :=
    List.inj_on_of_nodup_map (nodup_customVariables valid) among member
      (only other among keyOfOther)
  rw [sameTotal, same]

end Valid

/-- The spellings of a variable agree exactly if the last variables that go by
them have the same total, unless the sheet warns of a conflict. -/
theorem spellingsAgree_iff (character : Character) (config : Config)
    (valid : config.validate = .ok ()) (calculated : VariableStat)
    (member : calculated ∈ (calculate character config).statistics.customVariables) :
    let sheet := calculate character config
    sheet.SpellingsAgree calculated.id ↔
      calculated.id.SameUnderBoth (VariableStat.lastTotal? sheet.statistics.customVariables) ∨
        sheet.WarnsOf calculated.id.indexKey ∨ sheet.WarnsOf calculated.id.name := by
  intro sheet
  by_cases warned : sheet.WarnsOf calculated.id.indexKey ∨ sheet.WarnsOf calculated.id.name
  · exact iff_of_true (Or.inr warned) (Or.inr warned)
  refine or_congr (VariableId.sameUnderBoth_congr fun key either => ?_) Iff.rfl
  have quiet : ¬ sheet.WarnsOf key := by
    rcases List.mem_cons.mp either with rfl | last
    · exact fun about => warned (Or.inl about)
    · rw [List.mem_singleton.mp last]
      exact fun about => warned (Or.inr about)
  rcases exists_lastTotal? valid member either with ⟨total, last, ⟨stored, held, same⟩ | about⟩
  · exact ⟨stored, total, held, last, same⟩
  · exact absurd about quiet

/-- A character with a variable whose name is the key of another one. -/
def nested : Character :=
  { Character.of "sample" with
    changes :=
      [Change.of (.customVariable ⟨"u"⟩) "5" BonusType.untyped,
        Change.of (.customVariable ⟨"customVariable.u"⟩) "7" BonusType.untyped] }

theorem spellingsAgree_iff_nested :
    Config.default.validate = .ok () ∧
      ∃ calculated ∈ (calculate nested Config.default).statistics.customVariables,
        calculated.id = ⟨"customVariable.u"⟩ ∧
          (calculate nested Config.default).SpellingsAgree calculated.id := by
  have valid : Config.default.validate = .ok () := rfl
  have listed : ∃ calculated ∈ (calculate nested Config.default).statistics.customVariables,
      calculated.id = ⟨"customVariable.u"⟩ ∧ calculated.id.SameUnderBoth
        (VariableStat.lastTotal? (calculate nested Config.default).statistics.customVariables) := by
    decide +kernel
  rcases listed with ⟨calculated, member, named, total⟩
  exact ⟨valid, calculated, member, named,
    (spellingsAgree_iff nested Config.default valid calculated member).mpr (Or.inl total)⟩

/-- The variable whose key is the name of the other one has lost it to that
one. -/
theorem not_spellingsAgree_nested :
    Config.default.validate = .ok () ∧
      ∃ calculated ∈ (calculate nested Config.default).statistics.customVariables,
        ¬ (calculate nested Config.default).SpellingsAgree calculated.id :=
  ⟨rfl, by decide +kernel⟩

end Sheet
end CharacterSheet
