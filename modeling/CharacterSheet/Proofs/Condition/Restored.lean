import CharacterSheet.Condition.Basic
import CharacterSheet.Proofs.Json.Record
import CharacterSheet.Suppression.Rule

/-!
# Conditions and what they are made of are decoded again

Formulas, filters, conditions and rules of suppression are restored from their
data.  Two of them are read as one of several shapes without being told which.
A plain formula is not mistaken for a switch, because it has no expression to
switch on, and the filter of a condition is never read as a mere list.
-/

namespace CharacterSheet

theorem Comparison.restores (relation : Comparison) :
    Restores Comparison.toJson Comparison.ofJson? relation :=
  ⟨ofSymbol?_symbol relation, Json.noConfusion⟩

namespace Formula

/-- An expression text is itself again, although numbers are read too. -/
theorem restores_text (text : String) : Restores .str expressionText? text :=
  ⟨rfl, Json.noConfusion⟩

theorem Case.restores (choice : Case) : Restores Case.toJson Case.ofJson? choice := by
  refine .record rfl fun stored holds => ?_
  have value := stored.required_eq_some "caseValue" (restores_text choice.value) (by simp [holds])
  have relation := stored.defaulted_eq_some "operator" .equal choice.relation.restores
    (by simp [holds])
  have result := stored.required_eq_some "resultExpression" (restores_text choice.result)
    (by simp [holds])
  simp only [value, relation, result]
  rfl

theorem Switch.restores (switch : Switch) : Restores Switch.toJson Switch.ofJson? switch := by
  refine .record rfl fun stored holds => ?_
  have subject := stored.required_eq_some "switchExpression" (restores_text switch.subject)
    (by simp [holds])
  have cases := stored.required_eq_some "cases" (.list switch.cases fun choice _ => choice.restores)
    (by simp [holds])
  have otherwise := stored.required_eq_some "defaultValue" (restores_text switch.otherwise)
    (by simp [holds])
  simp only [subject, cases, otherwise]
  rfl

/-- Data without an expression to switch on is no switch. -/
theorem Switch.ofJson?_plain (expression : String) :
    Switch.ofJson? (.object [("expression", .str expression)]) = none := by
  rfl

theorem restores (formula : Formula) : Restores toJson ofJson? formula := by
  cases formula with
  | plain expression =>
    have decoded : ofJson? (.object [("expression", .str expression)]) =
        some (.plain expression) := by
      rw [ofJson?, Switch.ofJson?_plain]
      rfl
    exact ⟨decoded, Json.noConfusion⟩
  | switch switch =>
    have restored := switch.restores
    refine ⟨?_, restored.written⟩
    rw [toJson, ofJson?, restored.decoded]

end Formula

namespace Filter

theorem Operator.restores (operator : Operator) :
    Restores Operator.toJson Operator.ofJson? operator := by
  refine ⟨?_, Json.noConfusion⟩
  cases operator with
  | compare relation => cases relation <;> rfl
  | isIn | contains | meetsConditions => rfl

theorem Logic.restores (logic : Logic) : Restores Logic.toJson Logic.ofJson? logic := by
  cases logic <;> exact ⟨rfl, Json.noConfusion⟩

theorem Policy.restores (policy : Policy) : Restores Policy.toJson Policy.ofJson? policy := by
  cases policy <;> exact ⟨rfl, Json.noConfusion⟩

end Filter

/-- The expected value is data already. -/
theorem PropertyCondition.restores (condition : PropertyCondition) :
    Restores toJson ofJson? condition := by
  refine .record rfl fun stored holds => ?_
  have field := stored.nullable_eq_some "field" condition.field (fun path _ => .text path)
    (by simp [holds])
  have query := stored.nullable_eq_some "jmesPath" condition.query (fun query _ => .text query)
    (by simp [holds])
  have operator := stored.required_eq_some "operator" condition.operator.restores
    (by simp [holds])
  have expected : stored.defaulted "value" some .null = some condition.expected := by
    simp [Members.defaulted, holds]
  simp only [field, query, operator, expected]
  rfl

theorem Filter.restores (filter : Filter) : Restores toJson ofJson? filter := by
  refine .record rfl fun stored holds => ?_
  have logic := stored.defaulted_eq_some "type" .all filter.logic.restores (by simp [holds])
  have policy := stored.defaulted_eq_some "filterPolicy" .strict filter.policy.restores
    (by simp [holds])
  have conditions := stored.listed_eq_some_of_written "conditions" filter.conditions
    (fun condition _ => condition.restores) (by simp [holds])
  simp only [logic, policy, conditions]
  rfl

namespace Suppression

theorem Scope.restores (scope : Scope) : Restores Scope.toJson Scope.ofJson? scope := by
  cases scope <;> exact ⟨rfl, Json.noConfusion⟩

theorem Rule.restores (rule : Rule) : Restores toJson ofJson? rule := by
  refine .record rfl fun stored holds => ?_
  have scope := stored.required_eq_some "scope" rule.scope.restores (by simp [holds])
  have ids := stored.listed_eq_some "ids" rule.ids (fun id _ => .text id) (by simp [holds])
  have filter := stored.nullable_eq_some "filter" rule.filter (fun filter _ => filter.restores)
    (by simp [holds])
  have reason := stored.nullable_eq_some "reason" rule.reason (fun reason _ => .text reason)
    (by simp [holds])
  simp only [scope, ids, filter, reason]
  rfl

end Suppression

/-- Both bounds have at most 64 bits. -/
def CountRange.Writable (range : CountRange) : Prop :=
  (∀ low ∈ range.min, low < Numeric.powerOfTwo 64) ∧ ∀ high ∈ range.max, high < Numeric.powerOfTwo 64

theorem CountRange.restores {range : CountRange} (writable : range.Writable) :
    Restores toJson ofJson? range := by
  refine .record rfl fun stored holds => ?_
  have low := stored.nullable_eq_some "min" range.min (fun low kept => .count (writable.1 low kept))
    (by simp [holds])
  have high := stored.nullable_eq_some "max" range.max (fun high kept => .count (writable.2 high kept))
    (by simp [holds])
  unfold Json.count64?
  simp only [low, high]
  rfl

theorem EntityCondition.restores_filter (filter : Filter) :
    Restores Filter.toJson EntityCondition.filter? filter := by
  have restored := filter.restores
  refine ⟨?_, restored.written⟩
  rw [EntityCondition.filter?, restored.decoded]

namespace Condition

/-- The bounds of a count have at most 64 bits. -/
def Writable : Condition → Prop
  | simple _ => True
  | hasEntity condition => ∀ range ∈ condition.count, range.Writable

theorem restores {condition : Condition} (writable : condition.Writable) :
    Restores toJson ofJson? condition := by
  cases condition with
  | simple condition =>
    refine .record rfl fun stored holds => ?_
    have type := stored.required_eq_some "type" (.text "simple") (by simp [holds])
    have left := stored.required_eq_some "firstFormula" (.text condition.left) (by simp [holds])
    have relation := stored.required_eq_some "operator" condition.relation.restores
      (by simp [holds])
    have right := stored.required_eq_some "secondFormula" (.text condition.right)
      (by simp [holds])
    simp only [type, left, relation, right]
    rfl
  | hasEntity condition =>
    refine .record rfl fun stored holds => ?_
    have type := stored.required_eq_some "type" (.text "has_entity") (by simp [holds])
    have id := stored.nullable_eq_some "entityId" condition.id (fun id _ => .text id)
      (by simp [holds])
    have entityType := stored.nullable_eq_some "entityType" condition.type (fun type _ => .text type)
      (by simp [holds])
    have filter := stored.nullable_eq_some "filter" condition.filter
      (fun filter _ => EntityCondition.restores_filter filter) (by simp [holds])
    have count := stored.nullable_eq_some "count" condition.count
      (fun range kept => CountRange.restores (writable range kept)) (by simp [holds])
    simp only [type, id, entityType, filter, count]
    rfl

end Condition
end CharacterSheet
