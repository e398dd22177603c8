import CharacterSheet.Json.Basic

/-!
# Equality and truth of values

Queries and filters compare values by meaning: numbers by the doubles they
denote, so that an integer equals the whole double of the same size, and
everything else part by part.  Of two objects only the members of the first are
looked for in the second, which has to have as many.

Null, `false` and everything empty count as false, and any other value as true.
-/

namespace CharacterSheet
namespace Json

mutual

/-- Whether two values are equal by meaning. -/
def same : Json → Json → Bool
  | null, null => true
  | bool first, bool second => first == second
  | str first, str second => first == second
  | num first, num second => first.toFloat == second.toFloat
  | arr first, arr second => sameItems first second
  | obj first, obj second => first.length == second.length && allFoundIn second first
  | _, _ => false

/-- Whether two lists are equal item by item. -/
def sameItems : List Json → List Json → Bool
  | [], [] => true
  | first :: firsts, second :: seconds => first.same second && sameItems firsts seconds
  | _, _ => false

/-- Whether each of some members is equal to what others have under its name. -/
def allFoundIn (others : List (String × Json)) : List (String × Json) → Bool
  | [] => true
  | (name, value) :: rest => (others.lookup name).any value.same && allFoundIn others rest

end

/-- Whether a value counts as true. -/
def isTruthy : Json → Bool
  | null => false
  | bool value => value
  | num _ => true
  | str value => value != ""
  | arr items => !items.isEmpty
  | obj members => !members.isEmpty

/-- Whether a value is null. -/
def isNull : Json → Bool
  | null => true
  | _ => false

end Json
end CharacterSheet
