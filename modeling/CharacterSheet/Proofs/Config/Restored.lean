import CharacterSheet.Proofs.Json.Writing
import CharacterSheet.Proofs.Phase.Order

/-!
# Configurations are read again

A configuration is restored from its data, and its text is a text of that data,
although the members of a bonus rule are written in an order of their own.  So
reading what was written comes down to validation: either the configuration
comes back, or the reason why its order cannot be run.
-/

namespace CharacterSheet

open Json (Printable)

theorem StackRule.restores (stacking : StackRule) : Restores toJson ofJson? stacking := by
  cases stacking <;> exact ⟨rfl, Json.noConfusion⟩

theorem StackRule.printable (stacking : StackRule) (depth : Nat) :
    Printable depth stacking.toJson := by
  cases stacking <;> exact .str _

namespace BonusRule

theorem restores (rule : BonusRule) : Restores toJson ofJson? rule := by
  refine .record rfl fun stored holds => ?_
  have stacking := stored.defaulted_eq_some "stackRule" .highest rule.stacking.restores
    (by simp [holds, members])
  have touch := stored.defaulted_eq_some "countsForTouch" true (.truth rule.touch)
    (by simp [holds, members])
  have flatFooted := stored.defaulted_eq_some "countsForFlatFooted" true (.truth rule.flatFooted)
    (by simp [holds, members])
  simp only [stacking, touch, flatFooted]
  rfl

theorem sorted_layout (rule : BonusRule) : rule.layout.sorted = rule.toJson := by
  have stacking : rule.stacking.toJson.sorted = rule.stacking.toJson := by
    cases rule.stacking <;> rfl
  simp only [layout, toJson, members, Json.sorted, Json.sortedMembers, stacking]

theorem printable (rule : BonusRule) (depth : Nat) : Printable (depth + 1) rule.layout := by
  refine .obj ?_
  simp only [members, List.forall_mem_cons, List.not_mem_nil, false_implies, implies_true, and_true]
  exact ⟨rule.stacking.printable depth, .bool _, .bool _⟩

end BonusRule

namespace BonusTable

theorem restores (table : BonusTable) : Restores toJson ofJson? table := by
  refine .record rfl fun stored holds => ?_
  have each : Restores (Json.ofMap BonusRule.toJson) (Json.map? BonusRule.ofJson?) table.rules :=
    .map fun entry _ => entry.2.restores
  have rules := stored.required_eq_some "rules" each (by simp [holds])
  have unknown := stored.defaulted_eq_some "unknown" .highest table.unknown.restores
    (by simp [holds])
  simp only [rules, unknown]
  rfl

theorem sorted_layout (table : BonusTable) : table.layout.sorted = table.toJson := by
  simp only [layout, toJson, Json.sorted, Json.sortedMembers, BonusRule.sorted_layout,
    Json.sorted_ofMap BonusRule.sorted_layout]

theorem printable (table : BonusTable) (depth : Nat) : Printable (depth + 3) table.layout := by
  refine .obj ?_
  simp only [List.forall_mem_cons, List.not_mem_nil, false_implies, implies_true, and_true]
  exact ⟨.ofMap fun entry _ => entry.2.printable depth, table.unknown.printable (depth + 1)⟩

end BonusTable

theorem Phase.restores (phase : Phase) : Restores toJson ofJson? phase := by
  have distinct : (all.map name).Nodup := by decide
  exact ⟨(Restores.choice distinct phase.mem_all).decoded, Json.noConfusion⟩

namespace Config

theorem restores (config : Config) : Restores toJson ofJson? config := by
  refine .record rfl fun stored holds => ?_
  have bonusTypes := stored.defaulted_eq_some "bonusTypes" BonusTable.default
    config.bonusTypes.restores (by simp [holds])
  have phaseOrder := stored.defaulted_eq_some "phaseOrder" Phase.all
    (.list config.phaseOrder fun phase _ => phase.restores) (by simp [holds])
  simp only [bonusTypes, phaseOrder]
  rfl

theorem sorted_layout (config : Config) : config.layout.sorted = config.toJson := by
  have phase (phase : Phase) : phase.toJson.sorted = phase.toJson := rfl
  have phases := Json.sorted_ofList phase config.phaseOrder
  simp only [layout, toJson, Json.sorted, Json.sortedMembers, BonusTable.sorted_layout, phases]

theorem printable (config : Config) : Printable Json.maxDepth config.layout := by
  refine .obj ?_
  simp only [List.forall_mem_cons, List.not_mem_nil, false_implies, implies_true, and_true]
  exact ⟨config.bonusTypes.printable 123, .ofList fun _ _ => .str _⟩

theorem parse?_write (config : Config) : Json.parse? config.write.toList = some config.toJson := by
  rw [write, config.printable.parse?_pretty, config.sorted_layout]

/-- Reading what was written is a matter of validation. -/
theorem read_write (config : Config) :
    read config.write = (config.validate.mapError .invalid).map fun _ => config := by
  have decoded : (Json.parse? config.write.toList).bind ofJson? = some config := by
    rw [config.parse?_write, Option.bind_some, config.restores.decoded]
  unfold read
  simp only [decoded]
  cases config.validate with
  | ok => rfl
  | error => rfl

/-- What validation refuses is an invalid configuration. -/
theorem validate_refuses {config : Config} (refused : config.validate ≠ .ok ()) :
    ∃ message, config.validate = .error (.invalidConfig message) := by
  unfold validate at refused ⊢
  split
  · rename_i problem _
    exact ⟨problem.message, rfl⟩
  · rename_i sound
    rw [sound] at refused
    exact absurd rfl refused

/-- Validation is exact for a configuration, and reading its text repeats
validation. -/
structure ValidatesExactly (config : Config) : Prop where
  /-- The orders that can be run are accepted, and no others. -/
  accepted : config.validate = .ok () ↔ Phase.Runnable config.phaseOrder
  /-- An accepted configuration comes back from its text, and no other does. -/
  restored : read config.write = .ok config ↔ config.validate = .ok ()
  /-- For any other configuration, reading its text gives the same problem as
  validation. -/
  refused : config.validate ≠ .ok () → ∃ message,
    config.validate = .error (.invalidConfig message) ∧
      read config.write = .error (.invalid (.invalidConfig message))

theorem validatesExactly (config : Config) : config.ValidatesExactly where
  accepted := validate_eq_ok_iff
  restored := by
    rw [read_write]
    cases config.validate with
    | ok => simp [Except.map, Except.mapError]
    | error => simp [Except.map, Except.mapError]
  refused := by
    intro refused
    rcases validate_refuses refused with ⟨message, problem⟩
    refine ⟨message, problem, ?_⟩
    rw [read_write, problem]
    rfl

end Config
end CharacterSheet
