import CharacterSheet.Proofs.Dependency.Cycle

/-!
# Sorting the graphs that can be built

A graph is built from nothing by adding variables and dependencies one after
the other.  It then records exactly the dependencies that were added.  Sorting
such a graph succeeds unless the added dependencies go round in a circle, and it
puts every variable behind all that it directly depends on.
-/

namespace CharacterSheet
namespace DependencyGraph

open Relation

/-- A step in building a graph. -/
inductive BuildStep where
  | node (id : VariableId)
  | edge (dependent requirement : VariableId)

namespace BuildStep

/-- Take the step. -/
def apply (graph : DependencyGraph) : BuildStep → DependencyGraph
  | node id => graph.addNode id
  | edge dependent requirement => graph.addEdge dependent requirement

end BuildStep

/-- The graph that some steps build. -/
def build (steps : List BuildStep) : DependencyGraph :=
  steps.foldl BuildStep.apply empty

def Records (steps : List BuildStep) (dependent requirement : VariableId) : Prop :=
  BuildStep.edge dependent requirement ∈ steps

variable {graph : DependencyGraph} {dependent requirement : VariableId}

theorem requires_apply (step : BuildStep) :
    (step.apply graph).Requires dependent requirement ↔
      graph.Requires dependent requirement ∨ step = .edge dependent requirement := by
  cases step with
  | node id =>
    have unchanged : (BuildStep.apply graph (.node id)).Requires dependent requirement ↔
        graph.Requires dependent requirement :=
      Iff.rfl
    simp [unchanged]
  | edge first second =>
    rw [BuildStep.apply, requires_addEdge, BuildStep.edge.injEq, eq_comm (a := first),
      eq_comm (a := second)]

theorem requires_foldl_apply (steps : List BuildStep) (graph : DependencyGraph) :
    (steps.foldl BuildStep.apply graph).Requires dependent requirement ↔
      graph.Requires dependent requirement ∨ Records steps dependent requirement := by
  induction steps generalizing graph with
  | nil => simp [Records]
  | cons step rest inductionHypothesis =>
    rw [List.foldl_cons, inductionHypothesis, requires_apply, or_assoc, Records, Records,
      List.mem_cons, eq_comm (a := step)]

theorem requires_build (steps : List BuildStep) : (build steps).Requires = Records steps := by
  funext dependent requirement
  apply propext
  rw [build, requires_foldl_apply]
  constructor
  · rintro (nothing | recorded)
    · cases nothing
    · exact recorded
  · exact Or.inr

/-- A graph can be sorted exactly if no variable depends on itself, directly or
through others.  The order is one of all variables, in which each comes after
all of its direct dependencies. -/
theorem sort_build (steps : List BuildStep) :
    ((∃ order, (build steps).sort = .ok order) ↔ ∀ id, ¬ TransGen (Records steps) id id) ∧
      ∀ order, (build steps).sort = .ok order →
        order.Perm (build steps).nodes ∧
          ∀ before id after, order = before ++ id :: after →
            ∀ requirement, Records steps id requirement → requirement ∈ before := by
  rw [← requires_build]
  constructor
  · constructor
    · rintro ⟨order, sorted⟩
      exact (sort_eq_ok_iff.mp sorted).1
    · intro acyclic
      exact ⟨_, sort_eq_listing acyclic⟩
  · intro order sorted
    rcases sort_eq_ok_iff.mp sorted with ⟨acyclic, rfl⟩
    exact ⟨perm_listing acyclic, (ordered_listing acyclic).behind⟩

end DependencyGraph
end CharacterSheet
