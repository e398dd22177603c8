import CharacterSheet.Condition.Basic
import CharacterSheet.Entity.Basic
import CharacterSheet.Query.FieldPath

/-!
# Filtering entities

A property condition passes if the value it reads stands in its relation to
the expected value.  Nothing passes for a value that is missing or null, or
when the expected value refers to a key that is not published, not even
"differs"; hence a filter that wants no condition to pass matches wherever the
property is missing.

The operator that checks embedded conditions is the exception: a missing list
of conditions is satisfied.  Only conditions between expressions can be
satisfied there, because embedded conditions are judged without a view of the
character's entities.
-/

namespace CharacterSheet

/-- The outcome of a property condition. -/
structure EvaluatedCondition where
  field : String
  operator : Filter.Operator
  passed : Bool
  actual : Option Json
  expected : Option Json
  deriving BEq, Inhabited

namespace EvaluatedCondition

def toJson (evaluated : EvaluatedCondition) : Json :=
  .object [("field", .str evaluated.field), ("operator", evaluated.operator.toJson),
    ("passed", .bool evaluated.passed), ("actualValue", .ofOption id evaluated.actual),
    ("expectedValue", .ofOption id evaluated.expected)]

end EvaluatedCondition

namespace PropertyCondition

/-- The value that a condition reads. -/
def actualValue? (condition : PropertyCondition) (view : Json) : Option Json :=
  let found :=
    match condition.field, condition.query with
    | some path, _ => view.atPath? path
    | none, some query =>
      match Query.Expression.parse query with
      | .ok expression => some (expression.search view)
      | .error _ => none
    | none, none => none
  found.filter fun value => !value.isNull

/-- The value that a condition expects.  A text behind `@` is the key of a
published value. -/
def expectedValue? (condition : PropertyCondition) (index : Index) : Option Json :=
  match condition.expected with
  | .str text =>
    match text.toList with
    | '@' :: key => (index.get? (String.ofList key)).map .ofComputed
    | _ => some (.str text)
  | other => some other

/-- Whether a relation holds between two values.  Only numbers have an
order. -/
def relates (relation : Comparison) (actual expected : Json) : Bool :=
  match relation with
  | .equal => actual.same expected
  | .different => !actual.same expected
  | _ =>
    match actual, expected with
    | .num first, .num second => relation.holds first.toFloat second.toFloat
    | _, _ => false

/-- Whether an array holds an item, or a text another one. -/
def containsValue (whole part : Json) : Bool :=
  match whole, part with
  | .arr items, _ => items.any fun item => item.same part
  | .str text, .str part => Text.occursIn part.toList text.toList
  | _, _ => false

/-- Whether a value is an item of an array. -/
def isAmong (value whole : Json) : Bool :=
  match whole with
  | .arr items => items.any fun item => item.same value
  | _ => false

/-- Whether a condition holds without a view of the character's entities. -/
def holdsAlone (index : Index) : Condition → Bool
  | .simple condition => condition.holds index
  | .hasEntity _ => false

/-- Whether the conditions that a value lists are satisfied. -/
def embeddedHold (index : Index) : Option Json → Bool
  | none => true
  | some value =>
    match Json.list? Condition.ofJson? value with
    | some conditions => conditions.all (holdsAlone index)
    | none => false

/-- Whether an operator accepts a value. -/
def accepts (operator : Filter.Operator) (actual expected : Option Json) : Bool :=
  match actual, expected with
  | some actual, some expected =>
    match operator with
    | .compare relation => relates relation actual expected
    | .contains => containsValue actual expected
    | .isIn => isAmong actual expected
    | .meetsConditions => false
  | _, _ => false

/-- Judge the view of an entity. -/
def evaluate (condition : PropertyCondition) (view : Json) (index : Index) :
    EvaluatedCondition :=
  let actual := condition.actualValue? view
  if condition.operator = .meetsConditions then
    ⟨condition.label, condition.operator, embeddedHold index actual, actual, none⟩
  else
    let expected := condition.expectedValue? index
    ⟨condition.label, condition.operator, accepts condition.operator actual expected, actual,
      expected⟩

end PropertyCondition

/-- What filters say of an entity. -/
structure Verdict where
  entity : Entity
  isMatch : Bool
  evaluated : List EvaluatedCondition
  deriving BEq, Inhabited

namespace Verdict

def toJson (verdict : Verdict) : Json :=
  .object [("id", .str verdict.entity.id), ("matches", .bool verdict.isMatch),
    ("evaluatedConditions", .ofList EvaluatedCondition.toJson verdict.evaluated)]

end Verdict

namespace Filter

namespace Logic

/-- Combine the outcomes of conditions. -/
def combine (logic : Logic) (evaluated : List EvaluatedCondition) : Bool :=
  match logic with
  | all => evaluated.all (·.passed)
  | any => evaluated.any (·.passed)
  | none => evaluated.all fun condition => !condition.passed

end Logic

/-- The outcomes of the conditions of a filter. -/
def evaluated (filter : Filter) (view : Json) (index : Index) : List EvaluatedCondition :=
  filter.conditions.map fun condition => condition.evaluate view index

/-- Whether a filter matches the view of an entity. -/
def admits (filter : Filter) (view : Json) (index : Index) : Bool :=
  filter.logic.combine (filter.evaluated view index)

/-- Whether every filter matches an entity. -/
def allAdmit (filters : List Filter) (entity : Entity) (index : Index) : Bool :=
  filters.all fun filter => filter.admits entity.view index

/-- Take what one more filter says of an entity into a verdict.  A filter that
does not match ends nothing: the outcomes of all conditions are listed. -/
def extendVerdict (view : Json) (index : Index) (verdict : Verdict) (filter : Filter) : Verdict :=
  let outcomes := filter.evaluated view index
  { verdict with
    isMatch := verdict.isMatch && filter.logic.combine outcomes
    evaluated := verdict.evaluated ++ outcomes }

/-- What filters say of an entity, condition by condition. -/
def judge (filters : List Filter) (entity : Entity) (index : Index) : Verdict :=
  filters.foldl (extendVerdict entity.view index) ⟨entity, true, []⟩

/-- Judge entities, and keep those that match, or all under a permissive
policy. -/
def applyWithPolicy (filters : List Filter) (policy : Policy) (entities : List Entity)
    (index : Index) : List Verdict :=
  (entities.map fun entity => judge filters entity index).filter fun verdict =>
    policy = .permissive || verdict.isMatch

/-- The policy of a list of filters, which is that of the first. -/
def sharedPolicy : List Filter → Policy
  | [] => .permissive
  | filter :: _ => filter.policy

/-- Judge entities under the policy of the first filter. -/
def apply (filters : List Filter) (entities : List Entity) (index : Index) : List Verdict :=
  applyWithPolicy filters (sharedPolicy filters) entities index

end Filter

end CharacterSheet
