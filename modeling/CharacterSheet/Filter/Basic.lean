import CharacterSheet.Comparison
import CharacterSheet.Error
import CharacterSheet.Json.Record
import CharacterSheet.Query.Parser

/-!
# Filters on entities

A filter is a list of property conditions that are combined by a logic.  A
property condition reads a value from an entity, by a field path or by a path
query, and compares it with an expected value.

A strict filter drops what it does not match.  A permissive one keeps
everything and only reports what matches.
-/

namespace CharacterSheet

namespace Filter

/-- How the value of a property is judged. -/
inductive Operator where
  /-- By a relation to the expected value. -/
  | compare (relation : Comparison)
  /-- By being an item of the expected array. -/
  | isIn
  /-- By containing the expected value. -/
  | contains
  /-- By the conditions that it lists. -/
  | meetsConditions
  deriving DecidableEq, Inhabited

namespace Operator

/-- How the operator is written. -/
def symbol : Operator → String
  | compare relation => relation.symbol
  | isIn => "in"
  | contains => "contains"
  | meetsConditions => "meets_conditions"

/-- The operator with a given symbol. -/
def ofSymbol? (text : String) : Option Operator :=
  match Comparison.ofSymbol? text with
  | some relation => some (compare relation)
  | none => [isIn, contains, meetsConditions].find? fun operator => operator.symbol = text

def toJson (operator : Operator) : Json := .str operator.symbol

def ofJson? : Json → Option Operator
  | .str text => ofSymbol? text
  | _ => none

end Operator

/-- How the conditions of a filter combine. -/
inductive Logic where
  | all
  | any
  | none
  deriving DecidableEq, Inhabited

namespace Logic

def toJson : Logic → Json
  | all => .str "AND"
  | any => .str "OR"
  | none => .str "NOT"

def ofJson? : Json → Option Logic
  | .str "AND" => some all
  | .str "OR" => some any
  | .str "NOT" => some none
  | _ => Option.none

end Logic

/-- What becomes of entities that do not match. -/
inductive Policy where
  | strict
  | permissive
  deriving DecidableEq, Inhabited

namespace Policy

def toJson : Policy → Json
  | strict => .str "strict"
  | permissive => .str "permissive"

def ofJson? : Json → Option Policy
  | .str "strict" => some strict
  | .str "permissive" => some permissive
  | _ => none

end Policy

end Filter

/-- A condition on a property of an entity.  If it has a field path and a
query, the field path counts. -/
structure PropertyCondition where
  field : Option String
  query : Option String
  operator : Filter.Operator
  expected : Json
  deriving BEq, Inhabited

namespace PropertyCondition

/-- A condition on what a field path leads to. -/
def onField (path : String) (operator : Filter.Operator) (expected : Json) :
    PropertyCondition :=
  ⟨some path, none, operator, expected⟩

/-- A condition on what a query finds. -/
def onQuery (query : String) (operator : Filter.Operator) (expected : Json) :
    PropertyCondition :=
  ⟨none, some query, operator, expected⟩

/-- Where the condition looks for its value. -/
def label (condition : PropertyCondition) : String :=
  (condition.field.or condition.query).getD ""

def toJson (condition : PropertyCondition) : Json :=
  .object (Members.ofOption "field" .str condition.field ++
    Members.ofOption "jmesPath" .str condition.query ++
    [("operator", condition.operator.toJson), ("value", condition.expected)])

def ofJson? : Json → Option PropertyCondition :=
  Json.record? fun members => do
    let field ← members.nullable "field" Json.string?
    let query ← members.nullable "jmesPath" Json.string?
    let operator ← members.required "operator" Filter.Operator.ofJson?
    let expected ← members.defaulted "value" some .null
    return ⟨field, query, operator, expected⟩

end PropertyCondition

/-- Property conditions, combined by a logic. -/
structure Filter where
  logic : Filter.Logic
  policy : Filter.Policy
  conditions : List PropertyCondition
  deriving BEq, Inhabited

namespace Filter

/-- The strict filter that combines conditions by a logic. -/
def strict (logic : Logic) (conditions : List PropertyCondition) : Filter :=
  ⟨logic, .strict, conditions⟩

/-- The same filter with another policy. -/
def withPolicy (filter : Filter) (policy : Policy) : Filter :=
  { filter with policy := policy }

/-- The errors of the queries in the filter that cannot be parsed. -/
def invalidQueries (filter : Filter) : List SheetError :=
  filter.conditions.filterMap fun condition =>
    condition.query.bind fun query =>
      match Query.Expression.parse query with
      | .ok _ => none
      | .error problem => some (.invalidQuery query problem.message)

def toJson (filter : Filter) : Json :=
  .object [("type", filter.logic.toJson), ("filterPolicy", filter.policy.toJson),
    ("conditions", .ofList PropertyCondition.toJson filter.conditions)]

def ofJson? : Json → Option Filter :=
  Json.record? fun members => do
    let logic ← members.defaulted "type" Logic.ofJson? .all
    let policy ← members.defaulted "filterPolicy" Policy.ofJson? .strict
    let conditions ← members.listed "conditions" PropertyCondition.ofJson?
    return ⟨logic, policy, conditions⟩

end Filter

end CharacterSheet
