import CharacterSheet.Proofs.Bonus.Restriction
import CharacterSheet.Statistic.Defense

/-!
# The variants of armor class are parts of it

Armor class against touch attacks and while flat-footed is reduced from those
contributions whose types the bonus table lets count.  Since types are reduced
apart from each other, nothing counts for a variant that does not count in full,
and the other way around: the breakdown of the variant is the part of the full
breakdown that has the types of the variant.
-/

namespace CharacterSheet
namespace Calculation

/-- The contributions to armor class, those to natural armor being reduced
before. -/
def allArmorClassSources (calculation : Calculation) (index : Index) : List (Source Float) :=
  calculation.armorClassSources index (calculation.armorClass index).value.natural.total

/-- How the three values of armor class are reduced. -/
theorem armorClass_eq (calculation : Calculation) (index : Index) :
    let shown := (calculation.armorClass index).value
    let rule := calculation.table.rule
    let given := calculation.allArmorClassSources index
    shown.total = calculation.resolve given ∧
      shown.touch = calculation.resolve (Breakdown.ofTypes (fun type => (rule type).touch) given) ∧
      shown.flatFooted =
        calculation.resolve (Breakdown.ofTypes (fun type => (rule type).flatFooted) given) :=
  ⟨rfl, rfl, rfl⟩

/-- What some types contribute to a statistic is that part of its breakdown, if
base values and their replacements are kept or left out together.  In particular
the breakdowns of the variants of armor class are the parts of the full one that
the table lets count for them. -/
theorem breakdown_ofTypes :
    (∀ (table : BonusTable) (sources : List (Source Float)) (keeps : String → Bool),
      keeps BonusType.base = keeps BonusType.replacement →
        (Breakdown.ofSources table (Breakdown.ofTypes keeps sources)).sources =
          Breakdown.ofTypes keeps (Breakdown.ofSources table sources).sources) ∧
    ∀ (calculation : Calculation) (index : Index),
      let shown := (calculation.armorClass index).value
      let rule := calculation.table.rule
      ((rule BonusType.base).touch = (rule BonusType.replacement).touch →
        shown.touch.sources = Breakdown.ofTypes (fun type => (rule type).touch)
          shown.total.sources) ∧
      ((rule BonusType.base).flatFooted = (rule BonusType.replacement).flatFooted →
        shown.flatFooted.sources = Breakdown.ofTypes (fun type => (rule type).flatFooted)
          shown.total.sources) := by
  refine ⟨fun table sources keeps together => Breakdown.sources_ofSources_ofTypes together, ?_⟩
  intro calculation index shown rule
  rcases calculation.armorClass_eq index with ⟨total, touch, flatFooted⟩
  constructor
  · intro together
    rw [touch, total]
    exact Breakdown.sources_ofSources_ofTypes together
  · intro together
    rw [flatFooted, total]
    exact Breakdown.sources_ofSources_ofTypes together

/-- A character with bonuses to armor class of several types, two of which are
equally high, and with a base value that is replaced. -/
def armored : Calculation :=
  let bonus (value type : String) : Change := .of .armorClass value type
  let character := { Character.of "sample" with
    changes := [bonus "4" BonusType.armor, bonus "1" BonusType.dodge, bonus "4" BonusType.armor,
      bonus "12" BonusType.replacement, bonus "1" BonusType.dodge] }
  ⟨character, Compilation.ofCharacter character [], default, []⟩

theorem breakdown_ofTypes_armored :
    let sources := armored.allArmorClassSources Index.empty
    let unbased (type : String) : Bool := type != BonusType.base && type != BonusType.replacement
    let rule := armored.table.rule
    let shown := (armored.armorClass Index.empty).value
    (unbased BonusType.base = unbased BonusType.replacement ∧
        (Breakdown.ofSources armored.table (Breakdown.ofTypes unbased sources)).sources =
          Breakdown.ofTypes unbased (Breakdown.ofSources armored.table sources).sources) ∧
      ((rule BonusType.base).touch = (rule BonusType.replacement).touch ∧
        shown.touch.sources =
          Breakdown.ofTypes (fun type => (rule type).touch) shown.total.sources) ∧
      (rule BonusType.base).flatFooted = (rule BonusType.replacement).flatFooted ∧
        shown.flatFooted.sources =
          Breakdown.ofTypes (fun type => (rule type).flatFooted) shown.total.sources := by
  intro sources unbased rule shown
  have unbasedTogether : unbased BonusType.base = unbased BonusType.replacement := by decide
  have touchTogether : (rule BonusType.base).touch = (rule BonusType.replacement).touch := by
    decide +kernel
  have flatFootedTogether :
      (rule BonusType.base).flatFooted = (rule BonusType.replacement).flatFooted := by
    decide +kernel
  have variants := breakdown_ofTypes.2 armored Index.empty
  exact ⟨⟨unbasedTogether, breakdown_ofTypes.1 armored.table sources unbased unbasedTogether⟩,
    ⟨touchTogether, variants.1 touchTogether⟩, flatFootedTogether, variants.2 flatFootedTogether⟩

end Calculation
end CharacterSheet
