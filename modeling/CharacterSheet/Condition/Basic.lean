import CharacterSheet.Filter.Basic
import CharacterSheet.Formula.Basic

/-!
# Conditions

Conditions gate changes and other content.  A simple condition compares two
expressions.  A condition on entities counts those that a character has and
that fit an id, a type and a filter, and checks the count.
-/

namespace CharacterSheet

/-- Two expression texts and the relation between their values. -/
structure SimpleCondition where
  left : String
  relation : Comparison
  right : String
  deriving DecidableEq, Inhabited

namespace SimpleCondition

/-- Whether the relation holds.  It does not if one of the texts is no
expression. -/
def holds (condition : SimpleCondition) (index : Index) : Bool :=
  match Formula.tryResolve condition.left index, Formula.tryResolve condition.right index with
  | .ok left, .ok right => condition.relation.holds left right
  | _, _ => false

end SimpleCondition

/-- Bounds on a count, both included. -/
structure CountRange where
  min : Option Nat
  max : Option Nat
  deriving DecidableEq, Inhabited

namespace CountRange

/-- Whether a count keeps to the bounds. -/
def admits (range : CountRange) (count : Nat) : Bool :=
  range.min.all (· ≤ count) && range.max.all (count ≤ ·)

def toJson (range : CountRange) : Json :=
  .object (Members.ofOption "min" .ofNat range.min ++ Members.ofOption "max" .ofNat range.max)

def ofJson? : Json → Option CountRange :=
  Json.record? fun members => do
    let min ← members.nullable "min" Json.count64?
    let max ← members.nullable "max" Json.count64?
    return ⟨min, max⟩

end CountRange

/-- A condition on the number of entities of a character that fit. -/
structure EntityCondition where
  id : Option String
  type : Option String
  filter : Option Filter
  count : Option CountRange
  deriving BEq, Inhabited

namespace EntityCondition

/-- A filter as data, or a list of conditions that must all pass. -/
def filter? (value : Json) : Option Filter :=
  match Filter.ofJson? value with
  | some filter => some filter
  | none => (Json.list? PropertyCondition.ofJson? value).map (Filter.strict .all)

end EntityCondition

/-- A condition of either kind. -/
inductive Condition where
  | simple (condition : SimpleCondition)
  | hasEntity (condition : EntityCondition)
  deriving BEq, Inhabited

namespace Condition

/-- The condition that a character has a certain entity. -/
def hasEntityId (id : String) : Condition :=
  hasEntity ⟨some id, none, none, none⟩

def toJson : Condition → Json
  | simple condition =>
    .object [("type", .str "simple"), ("firstFormula", .str condition.left),
      ("operator", condition.relation.toJson), ("secondFormula", .str condition.right)]
  | hasEntity condition =>
    .object ([("type", .str "has_entity")] ++
      Members.ofOption "entityId" .str condition.id ++
      Members.ofOption "entityType" .str condition.type ++
      Members.ofOption "filter" Filter.toJson condition.filter ++
      Members.ofOption "count" CountRange.toJson condition.count)

def ofJson? : Json → Option Condition :=
  Json.record? fun members => do
    match ← members.required "type" Json.string? with
    | "simple" =>
      let left ← members.required "firstFormula" Json.string?
      let relation ← members.required "operator" Comparison.ofJson?
      let right ← members.required "secondFormula" Json.string?
      return simple ⟨left, relation, right⟩
    | "has_entity" =>
      let id ← members.nullable "entityId" Json.string?
      let type ← members.nullable "entityType" Json.string?
      let filter ← members.nullable "filter" EntityCondition.filter?
      let count ← members.nullable "count" CountRange.ofJson?
      return hasEntity ⟨id, type, filter, count⟩
    | _ => none

end Condition

end CharacterSheet
