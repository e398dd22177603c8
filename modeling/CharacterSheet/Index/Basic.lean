import CharacterSheet.SortedMap
import CharacterSheet.Numeric.Layout
import CharacterSheet.Numeric.Rounding

/-!
# The index of computed values

While a sheet is calculated, every result that formulas may read is published
in an index under a dotted key such as `ability.strength.modifier`.  The index
only grows: a key keeps the first value published under it, an equal value is
accepted silently, and a different one is a `Conflict`.  Every stored value is
finite.

A stage of the calculation collects its results in an `Update`, in which a key
may still be set repeatedly, and conflicts arise when the update is applied.
-/

namespace CharacterSheet

/-- The values published so far. -/
structure Index where
  values : SortedMap String Float
  deriving Inhabited

namespace Index

/-- An attempt to publish a second value under a key. -/
structure Conflict where
  key : String
  existing : Float
  attempted : Float

/-- The values that one stage adds. -/
structure Update where
  values : SortedMap String Float
  deriving Inhabited

def empty : Index := ⟨SortedMap.empty⟩

/-- The value published under a key. -/
def get? (index : Index) (key : String) : Option Float :=
  index.values.find? key

/-- The value that a formula reads under a key, zero if there is none. -/
def value (index : Index) (key : String) : Float :=
  (index.get? key).getD 0

/-- Whether a value is published under a key. -/
def contains (index : Index) (key : String) : Bool :=
  (index.get? key).isSome

/-- Publish a value, zero in place of one that is not finite. -/
def publish (index : Index) (key : String) (value : Float) : Except Conflict Index :=
  let value := Numeric.orZero value
  match index.get? key with
  | none => .ok ⟨index.values.insert key value⟩
  | some existing =>
    if existing == value then .ok index else .error ⟨key, existing, value⟩

/-- Publish a value unless that is a conflict. -/
def publishOrKeep (index : Index) (key : String) (value : Float) : Index :=
  match index.publish key value with
  | .ok published => published
  | .error _ => index

/-- The index of a list of values; the first value under a key counts. -/
def ofList (entries : List (String × Float)) : Index :=
  entries.foldl (fun index entry => index.publishOrKeep entry.1 entry.2) empty

/-- Publish entries one after the other, and list the conflicts. -/
def publishAll (index : Index) : List (String × Float) → Index × List Conflict
  | [] => (index, [])
  | (key, value) :: rest =>
    match index.publish key value with
    | .ok published => published.publishAll rest
    | .error conflict =>
      let (final, conflicts) := index.publishAll rest
      (final, conflict :: conflicts)

/-- Publish an update in key order. -/
def apply (index : Index) (update : Update) : Index × List Conflict :=
  index.publishAll update.values.toList

namespace Conflict

/-- How a refused value is reported. -/
def refusal (conflict : Conflict) : String :=
  "Index key '" ++ conflict.key ++ "' already published as " ++
    Numeric.plainText conflict.existing ++ ", refusing " ++ Numeric.plainText conflict.attempted

/-- How a value is reported that a calculation went on without. -/
def warning (conflict : Conflict) : String :=
  "Index key '" ++ conflict.key ++ "' already published as " ++
    Numeric.plainText conflict.existing ++ ", ignored " ++ Numeric.plainText conflict.attempted

end Conflict

namespace Update

def empty : Update := ⟨SortedMap.empty⟩

/-- Set a value, in place of one set before. -/
def set (update : Update) (key : String) (value : Float) : Update :=
  ⟨update.values.insert key value⟩

/-- The value set under a key. -/
def get? (update : Update) (key : String) : Option Float :=
  update.values.find? key

/-- Set a list of values. -/
def setAll (update : Update) (entries : List (String × Float)) : Update :=
  ⟨update.values.insertAll entries⟩

/-- The update of a list of values; the last value under a key counts. -/
def ofList (entries : List (String × Float)) : Update :=
  empty.setAll entries

/-- Set all values of another update. -/
def extend (update other : Update) : Update :=
  update.setAll other.values.toList

end Update

end Index

end CharacterSheet
