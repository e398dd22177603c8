import CharacterSheet.Bonus.Source
import CharacterSheet.FirstOccurrences

/-!
# Reducing contributions

Contributions of zero are dropped.  If anything replaces the base value, all
base values are discarded and the replacements take their place.  Then each
type present is reduced by its rule: a type that adds up counts all its
contributions, any other only the first of the highest.  The total adds up
what counts, type by type in the order in which the types first appear.
-/

namespace CharacterSheet

/-- The outcome of a reduction: the total, and every contribution that is not
zero with a note whether it counts. -/
structure Breakdown (α : Type) where
  total : α
  sources : List (Source α)

namespace Breakdown

variable {α : Type} [Amount α]

/-- The contributions that are not zero, not judged yet. -/
def contributing (sources : List (Source α)) : List (Source α) :=
  (sources.filter fun source => Amount.contributes source.amount).map fun source =>
    { source with relevant := false }

/-- Whether a contribution replaces the base value. -/
def replaces (source : Source α) : Bool :=
  source.type == BonusType.replacement

/-- The type by which a contribution is reduced: a replacement counts as a
base value, and base values that are replaced have none. -/
def effectiveType? (replaced : Bool) (source : Source α) : Option String :=
  if replaces source then some BonusType.base
  else if replaced && source.type == BonusType.base then none
  else some source.type

/-- The contributions of one effective type, with their places. -/
def ofType (replaced : Bool) (type : String) (sources : List (Source α × Nat)) :
    List (Source α × Nat) :=
  sources.filter fun entry => effectiveType? replaced entry.1 == some type

/-- The first of the highest contributions. -/
def firstHighest? (sources : List (Source α × Nat)) : Option (Source α × Nat) :=
  sources.foldl
    (fun best entry =>
      match best with
      | none => some entry
      | some kept => if Amount.atMost entry.1.amount kept.1.amount then some kept else some entry)
    none

/-- The contributions of one type that count. -/
def counted (table : BonusTable) (type : String) (sources : List (Source α × Nat)) :
    List (Source α × Nat) :=
  if table.addsUp type then sources else (firstHighest? sources).toList

/-- All contributions that count, type by type. -/
def allCounted (table : BonusTable) (sources : List (Source α)) : List (Source α × Nat) :=
  let numbered := sources.zipIdx
  let replaced := sources.any replaces
  (firstOccurrences (sources.filterMap (effectiveType? replaced))).flatMap fun type =>
    counted table type (ofType replaced type numbered)

/-- Reduce contributions. -/
def ofSources (table : BonusTable) (sources : List (Source α)) : Breakdown α :=
  let kept := contributing sources
  let counting := allCounted table kept
  let places := counting.map Prod.snd
  { total := counting.foldl (fun total entry => Amount.add total entry.1.amount) Amount.zero
    sources := kept.zipIdx.map fun entry =>
      { entry.1 with relevant := places.contains entry.2 } }

end Breakdown

end CharacterSheet
