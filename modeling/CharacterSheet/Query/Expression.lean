import CharacterSheet.Json.Equality
import CharacterSheet.Numeric.Decimal
import CharacterSheet.Numeric.Rounding
import CharacterSheet.Query.Token
import CharacterSheet.Text.Affix

/-!
# Path queries and what they find

A path query is evaluated against a value and finds a value.  Evaluation never
fails: a path that leads nowhere, an operand of the wrong kind and a function
applied to something it is not made for all give null.
-/

namespace CharacterSheet

namespace Json

/-- A computed number: an integer if it is whole and small enough for every
integer around it to be a double, and null if it is not finite. -/
def ofComputed (value : Float) : Json :=
  if Numeric.isWhole value && value.abs < 9.0e15 then ofInt (Numeric.toInt value)
  else ofFloat value

end Json

namespace Query

/-- The functions that queries can call. -/
inductive Builtin where
  | length
  | sum
  | average
  | minimum
  | maximum
  | contains
  | keys
  | values
  | startsWith
  | endsWith
  | toNumber
  | notNull
  | absolute
  | floor
  | ceiling
  deriving DecidableEq

namespace Builtin

def all : List Builtin :=
  [length, sum, average, minimum, maximum, contains, keys, values, startsWith, endsWith, toNumber,
    notNull, absolute, floor, ceiling]

def name : Builtin → String
  | length => "length"
  | sum => "sum"
  | average => "avg"
  | minimum => "min"
  | maximum => "max"
  | contains => "contains"
  | keys => "keys"
  | values => "values"
  | startsWith => "starts_with"
  | endsWith => "ends_with"
  | toNumber => "to_number"
  | notNull => "not_null"
  | absolute => "abs"
  | floor => "floor"
  | ceiling => "ceil"

def ofName? (text : String) : Option Builtin :=
  all.find? fun function => function.name = text

/-- The number of arguments, if it is fixed. -/
def arity? : Builtin → Option Nat
  | contains | startsWith | endsWith => some 2
  | notNull => none
  | _ => some 1

/-- The doubles of an array that holds nothing but numbers. -/
def numbers? : Json → Option (List Float)
  | .arr items => items.mapM fun item =>
    match item with
    | .num number => some number.toFloat
    | _ => none
  | _ => none

/-- A number computed from the numbers of an array, null for other values. -/
def overNumbers (compute : List Float → Float) (value : Json) : Json :=
  match numbers? value with
  | some numbers => .ofComputed (compute numbers)
  | none => .null

/-- A number computed from the numbers of an array that is not empty, null for
other values. -/
def overSomeNumbers (compute : List Float → Float) (value : Json) : Json :=
  match numbers? value with
  | some [] => .null
  | some numbers => .ofComputed (compute numbers)
  | none => .null

/-- A number computed from a number, null for other values. -/
def overNumber (compute : Float → Float) : Json → Json
  | .num number => .ofComputed (compute number.toFloat)
  | _ => .null

/-- A truth value computed from two texts, null for other values. -/
def overTexts (decide : List Char → List Char → Bool) : Json → Json → Json
  | .str first, .str second => .bool (decide first.toList second.toList)
  | _, _ => .null

/-- The number of characters, items or members. -/
def lengthOf : Json → Json
  | .str text => .ofNat text.length
  | .arr items => .ofNat items.length
  | .obj members => .ofNat members.length
  | _ => .null

/-- Whether an array holds an item, or a text another one. -/
def containment : Json → Json → Json
  | .arr items, wanted => .bool (items.any fun item => item.same wanted)
  | .str text, .str part => .bool (Text.occursIn part.toList text.toList)
  | _, _ => .null

/-- The number that a text spells, blanks around it aside. -/
def numberOf : Json → Json
  | .num number => .num number
  | .str text =>
    match Numeric.readFloat? (Text.trim text.toList) with
    | some value => .ofComputed value
    | none => .null
  | _ => .null

/-- The value of a call. -/
def apply (function : Builtin) (arguments : List Json) : Json :=
  let first := arguments.headD .null
  let second := arguments.tail.headD .null
  match function with
  | length => lengthOf first
  | sum => overNumbers Numeric.sum first
  | average =>
    overSomeNumbers (fun numbers => Numeric.sum numbers / Float.ofNat numbers.length) first
  | minimum => overSomeNumbers (·.foldl Numeric.minimum (1.0 / 0.0)) first
  | maximum => overSomeNumbers (·.foldl Numeric.maximum (-1.0 / 0.0)) first
  | contains => containment first second
  | keys =>
    match first with
    | .obj members => .arr (members.map fun member => .str member.1)
    | _ => .null
  | values =>
    match first with
    | .obj members => .arr (members.map Prod.snd)
    | _ => .null
  | startsWith => overTexts Text.beginsWith first second
  | endsWith => overTexts Text.endsWith first second
  | toNumber => numberOf first
  | notNull => (arguments.find? fun value => !value.isNull).getD .null
  | absolute => overNumber Float.abs first
  | floor => overNumber Numeric.floor first
  | ceiling => overNumber Numeric.ceiling first

end Builtin

/-- A path query as a tree. -/
inductive Expression where
  /-- The value that is searched. -/
  | current
  /-- A member of an object. -/
  | field (name : String)
  /-- An item of an array, counted from the end if negative. -/
  | index (position : Int)
  /-- A value given in the query. -/
  | literal (value : Json)
  /-- The right query on what the left one finds, null on null. -/
  | chain (left right : Expression)
  /-- The right query on every item of the array that the left one finds. -/
  | project (left right : Expression)
  /-- The right query on every member of the object that the left one
  finds. -/
  | projectMembers (left right : Expression)
  /-- The array found, with the items of inner arrays in their place. -/
  | flatten (inner : Expression)
  /-- The right query on the items that satisfy a condition. -/
  | filter (left condition right : Expression)
  | compare (relation : Comparison) (left right : Expression)
  | and (left right : Expression)
  | or (left right : Expression)
  | not (inner : Expression)
  /-- The right query on what the left one finds. -/
  | pipe (left right : Expression)
  | call (function : Builtin) (arguments : List Expression)
  deriving Inhabited

namespace Expression

/-- The item of an array at a position, counted from the end if negative. -/
def itemAt (position : Int) : Json → Json
  | .arr items =>
    match if position < 0 then items.length + position else position with
    | .ofNat place => items.getD place .null
    | .negSucc _ => .null
  | _ => .null

/-- The items of an array, with the items of inner arrays in their place. -/
def flattened : Json → Json
  | .arr items =>
    .arr (items.flatMap fun item =>
      match item with
      | .arr inner => inner
      | other => [other])
  | _ => .null

/-- Compare two values.  Only numbers have an order. -/
def relate (relation : Comparison) (left right : Json) : Json :=
  match relation with
  | .equal => .bool (left.same right)
  | .different => .bool (!left.same right)
  | _ =>
    match left, right with
    | .num first, .num second => .bool (relation.holds first.toFloat second.toFloat)
    | _, _ => .null

/-- What remains of values found one by one: those that are not null. -/
def collected (found : List Json) : Json :=
  .arr (found.filter fun value => !value.isNull)

mutual

/-- The value that a query finds. -/
def search : Expression → Json → Json
  | current, data => data
  | field name, data => (data.member? name).getD .null
  | index position, data => itemAt position data
  | literal value, _ => value
  | chain left right, data =>
    match left.search data with
    | .null => .null
    | found => right.search found
  | project left right, data =>
    match left.search data with
    | .arr items => collected (items.map right.search)
    | _ => .null
  | projectMembers left right, data =>
    match left.search data with
    | .obj members => collected (members.map fun member => right.search member.2)
    | _ => .null
  | flatten inner, data => flattened (inner.search data)
  | filter left condition right, data =>
    match left.search data with
    | .arr items =>
      collected ((items.filter fun item => (condition.search item).isTruthy).map right.search)
    | _ => .null
  | compare relation left right, data => relate relation (left.search data) (right.search data)
  | and left right, data =>
    let found := left.search data
    if found.isTruthy then right.search data else found
  | or left right, data =>
    let found := left.search data
    if found.isTruthy then found else right.search data
  | not inner, data => .bool (!(inner.search data).isTruthy)
  | pipe left right, data => right.search (left.search data)
  | call function arguments, data => function.apply (searchAll arguments data)

/-- The values that several queries find. -/
def searchAll : List Expression → Json → List Json
  | [], _ => []
  | first :: rest, data => first.search data :: searchAll rest data

end

end Expression

end Query
end CharacterSheet
