import CharacterSheet.Bonus.Aggregate
import CharacterSheet.Numeric.Rounding

/-!
# Resolved statistics

A `Stat` is a value of the sheet together with the contributions it was
reduced from.  Contributions may be added to a statistic that is resolved
already; resolving it again takes all of them into account.
-/

namespace CharacterSheet

/-- A statistic with its breakdown. -/
structure Stat where
  /-- The part of the total that base values or their replacements make up. -/
  base : Float
  total : Float
  /-- The contributions in the order they were added. -/
  sources : List (Source Float)

namespace Stat

def empty : Stat := ⟨0, 0, []⟩

instance : Inhabited Stat := ⟨empty⟩

/-- Whether a contribution counts and is a base value or a replacement of
one. -/
def countsAsBase (source : Source Float) : Bool :=
  source.relevant && (source.type == BonusType.base || source.type == BonusType.replacement)

/-- The statistic that contributions amount to. -/
def ofSources (table : BonusTable) (sources : List (Source Float)) : Stat :=
  let breakdown := Breakdown.ofSources table sources
  let bases := (breakdown.sources.filter countsAsBase).map (·.amount)
  ⟨Numeric.sum bases, breakdown.total, breakdown.sources⟩

/-- Add a contribution; the values change when the statistic is resolved. -/
def add (stat : Stat) (source : Source Float) : Stat :=
  { stat with sources := stat.sources ++ [source] }

/-- Compute the values anew from the contributions. -/
def resolve (stat : Stat) (table : BonusTable) : Stat :=
  ofSources table stat.sources

/-- The contributions that count. -/
def relevantSources (stat : Stat) : List (Source Float) :=
  stat.sources.filter (·.relevant)

def toJson (stat : Stat) : Json :=
  .object [("baseValue", .ofFloat stat.base), ("totalValue", .ofFloat stat.total),
    ("sourceValues", .ofList Source.toJson stat.sources)]

end Stat

end CharacterSheet
