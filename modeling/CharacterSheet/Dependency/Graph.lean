import CharacterSheet.FirstOccurrences
import CharacterSheet.Variable

/-!
# Dependencies between variables

A dependency graph records which variables have to be known before which.
Variables keep the order in which they were added, and so do dependencies,
which are recorded once each.  Every order that the graph gives is determined
by these two.

Building the graph keeps three promises, which are fields of the type: no
variable and no dependency is recorded twice, and dependencies connect
recorded variables.
-/

namespace CharacterSheet

/-- That one variable has to be known before another. -/
structure Dependency where
  dependent : VariableId
  requirement : VariableId
  deriving DecidableEq

/-- Variables and the dependencies between them. -/
structure DependencyGraph where
  /-- The variables in the order they were added. -/
  nodes : List VariableId
  /-- The dependencies in the order they were added. -/
  edges : List Dependency
  nodes_distinct : nodes.Nodup
  edges_distinct : edges.Nodup
  edges_declared : ∀ edge ∈ edges, edge.dependent ∈ nodes ∧ edge.requirement ∈ nodes

namespace DependencyGraph

def empty : DependencyGraph :=
  ⟨[], [], List.nodup_nil, List.nodup_nil, by simp⟩

/-- Add a variable. -/
def addNode (graph : DependencyGraph) (id : VariableId) : DependencyGraph where
  nodes := appendNew graph.nodes id
  edges := graph.edges
  nodes_distinct := nodup_appendNew id graph.nodes_distinct
  edges_distinct := graph.edges_distinct
  edges_declared edge member :=
    have declared := graph.edges_declared edge member
    ⟨mem_appendNew.mpr (Or.inl declared.1), mem_appendNew.mpr (Or.inl declared.2)⟩

/-- Record that the first variable depends on the second, and add both. -/
def addEdge (graph : DependencyGraph) (dependent requirement : VariableId) :
    DependencyGraph where
  nodes := ((graph.addNode dependent).addNode requirement).nodes
  edges := appendNew graph.edges ⟨dependent, requirement⟩
  nodes_distinct := ((graph.addNode dependent).addNode requirement).nodes_distinct
  edges_distinct := nodup_appendNew _ graph.edges_distinct
  edges_declared edge member := by
    rcases mem_appendNew.mp member with old | new
    · exact ((graph.addNode dependent).addNode requirement).edges_declared edge old
    · subst new
      exact ⟨mem_appendNew.mpr (Or.inl (mem_appendNew.mpr (Or.inr rfl))),
        mem_appendNew.mpr (Or.inr rfl)⟩

/-- Record those of some requirements of a variable that are variables of the
graph. -/
def addRequirements (graph : DependencyGraph) (id : VariableId) :
    List VariableId → DependencyGraph
  | [] => graph
  | requirement :: rest =>
    if requirement ∈ graph.nodes then (graph.addEdge id requirement).addRequirements id rest
    else graph.addRequirements id rest

/-- The graph of some variables, each with its requirements.  Requirements
that are not among the variables are left out. -/
def ofDependencies (entries : List (VariableId × List VariableId)) : DependencyGraph :=
  entries.foldl (fun graph entry => graph.addRequirements entry.1 entry.2)
    (entries.foldl (fun graph entry => graph.addNode entry.1) empty)

/-- The place of a variable in the order of addition. -/
def position? (graph : DependencyGraph) (id : VariableId) : Option Nat :=
  graph.nodes.findIdx? (· = id)

/-- The variables that a variable requires directly, in the order recorded. -/
def requirements (graph : DependencyGraph) (id : VariableId) : List VariableId :=
  (graph.edges.filter (·.dependent = id)).map (·.requirement)

/-- The variables that require a variable directly, in the order recorded. -/
def dependents (graph : DependencyGraph) (id : VariableId) : List VariableId :=
  (graph.edges.filter (·.requirement = id)).map (·.dependent)

/-- The variables that a variable requires directly, latest first. -/
def dependencies (graph : DependencyGraph) (id : VariableId) : List VariableId :=
  (graph.requirements id).reverse

end DependencyGraph

end CharacterSheet
