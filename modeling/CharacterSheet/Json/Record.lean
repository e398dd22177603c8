import CharacterSheet.Json.Basic

/-!
# Decoding structured data

A decoder takes a JSON value to a value of a rule type, or to nothing if the
value does not fit.  Records are read member by member; members that no
decoder asks for are ignored.  There are three kinds of member.

* A `required` one must be present.
* A `nullable` one may be absent or null, which both mean that there is no
  value.
* A `defaulted` one may be absent, but a present one must fit.

The writers of this module are the inverse operations: `record` builds an
object, and the helpers beside it leave out members that hold nothing.

Throughout the library `toJson` gives a value as data and `ofJson?` the value
that data denotes.  Where the members of a value stand among others in one
object, these are `members` and `ofMembers?`.
-/

namespace CharacterSheet

/-- The members of a JSON object. -/
abbrev Members := List (String × Json)

namespace Json

/-- A text. -/
def string? : Json → Option String
  | str value => some value
  | _ => none

/-- A truth value. -/
def bool? : Json → Option Bool
  | bool value => some value
  | _ => none

/-- A number as a double. -/
def float? : Json → Option Float
  | num value => some value.toFloat
  | _ => none

/-- An integer between two bounds, both included. -/
def intWithin? (low high : Int) : Json → Option Int
  | num (.int value) => if low ≤ value && value ≤ high then some value else none
  | _ => none

/-- A natural number below a bound. -/
def natBelow? (bound : Nat) : Json → Option Nat
  | num (.int (.ofNat value)) => if value < bound then some value else none
  | _ => none

/-- A level or a similar small count, of at most 32 bits. -/
def count32? : Json → Option Nat := natBelow? (Numeric.powerOfTwo 32)

/-- A bound on a number of things, of at most 64 bits. -/
def count64? : Json → Option Nat := natBelow? (Numeric.powerOfTwo 64)

/-- An array whose items all fit. -/
def list? {α : Type} (decode : Json → Option α) : Json → Option (List α)
  | arr items => items.mapM decode
  | _ => none

/-- An object whose members all fit. -/
def map? {α : Type} (decode : Json → Option α) : Json → Option (SortedMap String α)
  | obj members => do
    let entries ← members.mapM fun member => (decode member.2).map (member.1, ·)
    return SortedMap.ofList entries
  | _ => none

/-- An object whose members all fit and whose names can be read as keys; of
two members with one key the later counts. -/
def mapBy? {κ α : Type} [OrderedKey κ] (key? : String → Option κ) (decode : Json → Option α) :
    Json → Option (SortedMap κ α)
  | obj members => do
    let entries ← members.mapM fun member => do
      let key ← key? member.1
      let value ← decode member.2
      return (key, value)
    return SortedMap.ofList entries
  | _ => none

/-- The object of a map whose keys are written as names. -/
def ofMapBy {κ α : Type} [OrderedKey κ] (name : κ → String) (encode : α → Json)
    (map : SortedMap κ α) : Json :=
  object (map.toList.map fun entry => (name entry.1, encode entry.2))

/-- One of some options, given by its name. -/
def choice? {α : Type} (options : List α) (name : α → String) : Json → Option α
  | str text => options.find? fun option => name option = text
  | _ => none

/-- The members of an object. -/
def members? : Json → Option Members
  | obj members => some members
  | _ => none

/-- A record: an object decoded member by member. -/
def record? {α : Type} (decode : Members → Option α) (value : Json) : Option α :=
  value.members?.bind decode

end Json

namespace Members

variable {α : Type}

/-- A member that must be present. -/
def required (name : String) (decode : Json → Option α) (members : Members) : Option α :=
  (members.lookup name).bind decode

/-- A member that may be absent or null. -/
def nullable (name : String) (decode : Json → Option α) (members : Members) :
    Option (Option α) :=
  match members.lookup name with
  | none => some none
  | some .null => some none
  | some value => (decode value).map some

/-- A member that may be absent, with the value it then has. -/
def defaulted (name : String) (decode : Json → Option α) (default : α) (members : Members) :
    Option α :=
  match members.lookup name with
  | none => some default
  | some value => decode value

/-- A list that may be absent and is then empty. -/
def listed (name : String) (decode : Json → Option α) (members : Members) : Option (List α) :=
  members.defaulted name (Json.list? decode) []

/-- The members without those of the given names. -/
def without (names : List String) (members : Members) : Members :=
  members.filter fun member => !names.contains member.1

/-- A member that is written only if there is a value. -/
def ofOption (name : String) (encode : α → Json) : Option α → Members
  | none => []
  | some value => [(name, encode value)]

/-- A list member that is written only if it has items. -/
def ofItems (name : String) (encode : α → Json) (items : List α) : Members :=
  if items.isEmpty then [] else [(name, Json.ofList encode items)]

end Members

end CharacterSheet
