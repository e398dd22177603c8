import CharacterSheet.Config
import Mathlib.Data.List.Count
import Mathlib.Data.List.Perm.Basic
import Mathlib.Data.List.TakeWhile

/-!
# Orders of phases that can be run

Validation goes through the order three times: it counts every phase, looks for
phases that stand before one they require, and tests the last.  Each pass is
exact for one field of `Phase.Runnable`, so together they accept the orders
that can be run and no others.  In such an order every phase has one place.
-/

namespace CharacterSheet

namespace Phase

theorem mem_all (phase : Phase) : phase ∈ all := by
  cases phase <;> decide

theorem count_all (phase : Phase) : all.count phase = 1 := by
  cases phase <;> decide

/-- Every phase of an order stands behind the phases that it requires. -/
def Respects (order : List Phase) : Prop :=
  ∀ before phase after, order = before ++ phase :: after → phase.requires ⊆ before

/-- An order that can be run. -/
structure Runnable (order : List Phase) : Prop where
  perm : order.Perm all
  respects : Respects order
  last : order.getLast? = some .attacks

namespace Runnable

variable {order : List Phase} (runnable : Runnable order) {phase : Phase}

include runnable

theorem count (phase : Phase) : order.count phase = 1 :=
  (runnable.perm.count_eq phase).trans phase.count_all

/-- The phases in front of the only place of a phase. -/
theorem takeWhile_of_split {before after : List Phase} (split : order = before ++ phase :: after) :
    order.takeWhile (· != phase) = before ∧ phase ∉ after := by
  have once := runnable.count phase
  rw [split, List.count_append, List.count_cons_self] at once
  have notBefore : phase ∉ before := List.count_eq_zero.mp (by omega)
  have notAfter : phase ∉ after := List.count_eq_zero.mp (by omega)
  refine ⟨?_, notAfter⟩
  rw [split, List.takeWhile_append_of_pos, List.takeWhile_cons_of_neg, List.append_nil]
  · simp
  · intro other listed
    exact bne_iff_ne.mpr fun same => notBefore (same ▸ listed)

/-- In front of its place and behind it a phase does not stand. -/
theorem exists_split (phase : Phase) :
    ∃ after, order = order.takeWhile (· != phase) ++ phase :: after ∧ phase ∉ after := by
  rcases List.append_of_mem (runnable.perm.mem_iff.mpr phase.mem_all) with ⟨before, after, split⟩
  rcases runnable.takeWhile_of_split split with ⟨first, notAfter⟩
  exact ⟨after, first.symm ▸ split, notAfter⟩

end Runnable

theorem notMem_takeWhile (order : List Phase) (phase : Phase) :
    phase ∉ order.takeWhile (· != phase) := by
  intro member
  simpa using List.mem_takeWhile_imp member

end Phase

namespace Config

theorem miscounted?_eq_none_iff {order : List Phase} :
    miscounted? order = none ↔ order.Perm Phase.all := by
  rw [miscounted?, List.findSome?_eq_none_iff, List.perm_iff_count]
  constructor
  · intro counted phase
    have each := counted phase phase.mem_all
    rw [phase.count_all]
    by_contra wrong
    dsimp only at each
    rw [if_neg wrong] at each
    cases each
  · intro counts phase _
    exact if_pos ((counts phase).trans phase.count_all)

theorem tooEarly?_cons_eq_none_iff {earlier rest : List Phase} {phase : Phase} :
    tooEarly? earlier (phase :: rest) = none ↔
      phase.requires ⊆ earlier ∧ tooEarly? (earlier ++ [phase]) rest = none := by
  have missing : (phase.requires.find? fun required => !earlier.contains required) = none ↔
      phase.requires ⊆ earlier := by
    simp [List.subset_def]
  rw [tooEarly?]
  split
  · rename_i required found
    have apart : ¬phase.requires ⊆ earlier := by
      rw [← missing, found]
      exact Option.some_ne_none required
    exact ⟨fun none => absurd none (Option.some_ne_none _), fun timely => absurd timely.1 apart⟩
  · rename_i allEarlier
    exact ⟨fun timely => ⟨missing.mp allEarlier, timely⟩, And.right⟩

/-- Nothing stands too early if every phase finds what it requires among the
phases in front of it. -/
theorem tooEarly?_eq_none_iff {earlier order : List Phase} :
    tooEarly? earlier order = none ↔
      ∀ before phase after, order = before ++ phase :: after →
        phase.requires ⊆ earlier ++ before := by
  induction order generalizing earlier with
  | nil => simp [tooEarly?]
  | cons first rest inductionHypothesis =>
    rw [tooEarly?_cons_eq_none_iff, inductionHypothesis]
    constructor
    · rintro ⟨required, later⟩ before phase after split
      cases before with
      | nil =>
        cases split
        rwa [List.append_nil]
      | cons other before =>
        cases split
        have behind := later before phase after rfl
        rwa [List.append_assoc, List.singleton_append] at behind
    · intro timely
      refine ⟨List.append_nil earlier ▸ timely [] first rest rfl, ?_⟩
      intro before phase after split
      rw [List.append_assoc, List.singleton_append]
      exact timely (first :: before) phase after (congrArg (List.cons first) split)

theorem check?_eq_none_iff {order : List Phase} :
    check? order = none ↔ Phase.Runnable order := by
  have timely : tooEarly? [] order = none ↔ Phase.Respects order := tooEarly?_eq_none_iff
  unfold check?
  constructor
  · intro checked
    split at checked
    · cases checked
    · rename_i counted
      split at checked
      · cases checked
      · rename_i respected
        refine ⟨miscounted?_eq_none_iff.mp counted, timely.mp respected, ?_⟩
        by_contra wrong
        rw [if_neg wrong] at checked
        cases checked
  · rintro ⟨perm, respects, last⟩
    rw [miscounted?_eq_none_iff.mpr perm, timely.mpr respects]
    exact if_pos last

example : check? Phase.all = none := by decide

theorem validate_eq_ok_iff {config : Config} :
    config.validate = .ok () ↔ Phase.Runnable config.phaseOrder := by
  rw [← check?_eq_none_iff, validate]
  split
  · rename_i found
    simp [found]
  · rename_i found
    simp [found]

theorem runnable_of_validate {config : Config} (valid : config.validate = .ok ()) :
    Phase.Runnable config.phaseOrder :=
  validate_eq_ok_iff.mp valid

end Config
end CharacterSheet
