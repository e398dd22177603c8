import CharacterSheet.Json.Basic

/-!
# Comparisons

The six relations that formulas, conditions and filters share.  A comparison
with an undefined number never holds, not even "differs".
-/

namespace CharacterSheet

/-- A relation between two numbers. -/
inductive Comparison where
  | equal
  | different
  | less
  | greater
  | atMost
  | atLeast
  deriving DecidableEq, Inhabited

namespace Comparison

/-- Whether the relation holds. -/
def holds (relation : Comparison) (left right : Float) : Bool :=
  if left.isNaN || right.isNaN then false
  else
    match relation with
    | equal => left == right
    | different => left != right
    | less => left < right
    | greater => right < left
    | atMost => left ≤ right
    | atLeast => right ≤ left

/-- How the relation is written. -/
def symbol : Comparison → String
  | equal => "=="
  | different => "!="
  | less => "<"
  | greater => ">"
  | atMost => "<="
  | atLeast => ">="

def all : List Comparison := [equal, different, less, greater, atMost, atLeast]

/-- The relation with a given symbol. -/
def ofSymbol? (text : String) : Option Comparison :=
  all.find? fun relation => relation.symbol = text

theorem ofSymbol?_symbol (relation : Comparison) : ofSymbol? relation.symbol = some relation := by
  cases relation <;> rfl

def toJson (relation : Comparison) : Json := .str relation.symbol

def ofJson? : Json → Option Comparison
  | .str text => ofSymbol? text
  | _ => none

end Comparison

end CharacterSheet
