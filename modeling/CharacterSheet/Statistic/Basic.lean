import CharacterSheet.Bonus.Stat
import CharacterSheet.Change.Compilation
import CharacterSheet.Condition.Evaluation

/-!
# Calculating statistics

A phase of the calculation reads a `Calculation`, which stays the same all the
time, and the index of what earlier phases have published.  It gives a
`PhaseResult`: a value for the sheet, the values it publishes, and warnings.

A change contributes to a statistic if it targets the statistic and all of its
conditions hold.  Changes whose conditions fail are left out before anything
is reduced.
-/

namespace CharacterSheet

/-- What all phases read beside the published values. -/
structure Calculation where
  character : Character
  compiled : Compilation
  table : BonusTable
  /-- The entities of the character that are not suppressed. -/
  entities : List Entity

/-- What a phase gives. -/
structure PhaseResult (α : Type) where
  value : α
  update : Index.Update
  warnings : List SheetWarning

namespace PhaseResult

variable {α β : Type}

/-- A result without warnings that publishes some values; the last value under
a key counts. -/
def of (value : α) (published : List (String × Float)) : PhaseResult α :=
  ⟨value, Index.Update.ofList published, []⟩

/-- The same result with another view of the value. -/
def map (view : α → β) (result : PhaseResult α) : PhaseResult β :=
  ⟨view result.value, result.update, result.warnings⟩

end PhaseResult

namespace Calculation

/-- Whether the conditions of a change hold. -/
def admits (calculation : Calculation) (index : Index) (compiled : CompiledChange) : Bool :=
  Condition.allHold compiled.change.conditions index (some calculation.entities)

/-- What some changes contribute to the statistics that are selected. -/
def contributions (calculation : Calculation) (index : Index) (changes : List CompiledChange)
    (selects : ChangeTarget → Bool) : List (Source Float) :=
  (changes.filter fun compiled =>
    selects compiled.change.target && calculation.admits index compiled).map (·.source index)

/-- What the changes of active content contribute to the statistics that are
selected. -/
def sources (calculation : Calculation) (index : Index) (selects : ChangeTarget → Bool) :
    List (Source Float) :=
  calculation.contributions index calculation.compiled.changes selects

/-- What changes contribute to one statistic. -/
def sourcesOf (calculation : Calculation) (index : Index) (target : ChangeTarget) :
    List (Source Float) :=
  calculation.sources index (· == target)

/-- The contextual changes that apply to every attack of a kind. -/
def mandatory (calculation : Calculation) (kind : AttackKind) : List CompiledContextual :=
  calculation.compiled.contextual.filter fun compiled =>
    compiled.contextual.isMandatory && compiled.contextual.appliesTo.includes kind

/-- What mandatory contextual changes contribute to the statistics that are
selected. -/
def contextualSources (calculation : Calculation) (index : Index) (kind : AttackKind)
    (selects : ChangeTarget → Bool) : List (Source Float) :=
  calculation.contributions index
    ((calculation.mandatory kind).flatMap CompiledContextual.changes) selects

/-- The statistic that contributions amount to. -/
def resolve (calculation : Calculation) (sources : List (Source Float)) : Stat :=
  Stat.ofSources calculation.table sources

/-- The base value that the modifier of an ability makes up. -/
def abilitySource (index : Index) (ability : Ability) : Source Float :=
  Source.base (index.value ability.modifierKey) ability.modifierLabel

end Calculation

end CharacterSheet
