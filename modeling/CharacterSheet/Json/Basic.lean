import CharacterSheet.SortedMap
import CharacterSheet.Numeric.Dyadic

/-!
# Structured data

Rules, characters and query results are exchanged as JSON values.  Two points
are fixed here.  A number remembers whether it was an integer, because an
integer keeps all its digits when it is written again.  And the members of an
object stand in ascending order of their names, without repetition; `object`
builds objects that way.
-/

namespace CharacterSheet

/-- A JSON number: an integer of at most 64 bits, or a double. -/
inductive Number where
  | int (value : Int)
  | float (value : Float)
  deriving DecidableEq

namespace Number

/-- The nearest double. -/
def toFloat : Number → Float
  | int value => Float.ofInt value
  | float value => value

end Number

/-- A JSON value. -/
inductive Json where
  | null
  | bool (value : Bool)
  | num (value : Number)
  | str (value : String)
  | arr (items : List Json)
  | obj (members : List (String × Json))
  deriving Inhabited, BEq

namespace Json

/-- An integer. -/
def ofInt (value : Int) : Json := num (.int value)

/-- A natural number. -/
def ofNat (value : Nat) : Json := num (.int value)

/-- A computed double; there is no number for one that is not finite. -/
def ofFloat (value : Float) : Json :=
  if value.isFinite then num (.float value) else null

/-- The object with the given members; of two members of one name the later
one counts. -/
def object (members : List (String × Json)) : Json :=
  obj (SortedMap.ofList members).toList

/-- The object of a map. -/
def ofMap {α : Type} (encode : α → Json) (map : SortedMap String α) : Json :=
  obj (map.mapValues fun _ value => encode value).toList

/-- The array of a list. -/
def ofList {α : Type} (encode : α → Json) (items : List α) : Json :=
  arr (items.map encode)

/-- A value or null. -/
def ofOption {α : Type} (encode : α → Json) : Option α → Json
  | none => null
  | some value => encode value

/-- The member of an object under a name. -/
def member? (name : String) : Json → Option Json
  | obj members => members.lookup name
  | _ => none

end Json

end CharacterSheet
