import CharacterSheet.Bonus.Table

/-!
# Contributions

A statistic is the reduction of a list of contributions, each of which has an
amount, a bonus type and an origin.

The reduction needs little of the amounts: to add them, to compare them, and
to know which of them contribute nothing.  `Amount` collects that, so that
statements about the reduction can be made in exact arithmetic as well as in
doubles.
-/

namespace CharacterSheet

/-- What the reduction of contributions needs of their amounts. -/
class Amount (α : Type) where
  /-- The total of no contributions. -/
  zero : α
  /-- The total of two amounts. -/
  add : α → α → α
  /-- Whether the first amount is at most the second. -/
  atMost : α → α → Bool
  /-- Whether an amount contributes at all: a zero does not, and neither does
  an undefined number. -/
  contributes : α → Bool

instance : Amount Float where
  zero := 0
  add := (· + ·)
  atMost first second := first ≤ second
  contributes amount := !(amount == 0) && !amount.isNaN

/-- A contribution to a statistic. -/
structure Source (α : Type) where
  amount : α
  type : String
  name : String
  id : String
  /-- Whether the contribution counts toward the total, which the reduction
  finds out. -/
  relevant : Bool
  deriving DecidableEq

namespace Source

/-- A contribution that is not judged yet. -/
def of {α : Type} (amount : α) (type name id : String) : Source α :=
  ⟨amount, type, name, id, false⟩

/-- A base value, which has no id but its name. -/
def base {α : Type} (amount : α) (name : String) : Source α :=
  of amount BonusType.base name name

def toJson (source : Source Float) : Json :=
  .object [("value", .ofFloat source.amount), ("bonusTypeId", .str source.type),
    ("sourceName", .str source.name), ("sourceUniqueId", .str source.id),
    ("relevant", .bool source.relevant)]

end Source

end CharacterSheet
