import CharacterSheet.Dependency.Graph

/-!
# Cycles and evaluation order

`DependencyGraph.findCycle?` searches for variables that depend on each other
in a circle, and `DependencyGraph.sort` lists all variables so that each comes
after everything it requires.  Both go through the graph depth first.  The
search for cycles follows the dependents of a variable, the latest first; the
order is made by listing the requirements of a variable before itself, the
earliest first.

Both are bounded by the number of variables: the way from the variable at
which a search starts to the one it has reached never visits a variable twice.
-/

namespace CharacterSheet
namespace DependencyGraph

/-- The circle that closes when a variable is met again on the way to it. -/
def closeCycle (path : List VariableId) (id : VariableId) : List VariableId :=
  path.dropWhile (· ≠ id) ++ [id]

/-- Search the graph from a variable that is not visited yet, given the way to
it and the variables visited before.  The outcome is a cycle, or the variables
visited without meeting one. -/
def searchFrom (graph : DependencyGraph) : Nat → List VariableId → VariableId →
    List VariableId → Except (List VariableId) (List VariableId)
  | 0, _, _, visited => .ok visited
  | bound + 1, path, id, visited =>
    let path := path ++ [id]
    (graph.dependents id).reverse.foldlM
      (fun visited next =>
        if next ∈ visited then
          if next ∈ path then .error (closeCycle path next) else .ok visited
        else searchFrom graph bound path next visited)
      (id :: visited)

/-- Search the whole graph, from each variable that is not visited yet. -/
def search (graph : DependencyGraph) : Except (List VariableId) (List VariableId) :=
  graph.nodes.foldlM
    (fun visited id =>
      if id ∈ visited then .ok visited else graph.searchFrom graph.nodes.length [] id visited)
    []

/-- A circle of variables, each a requirement of the next, if there is one.
The variable at which it closes stands at both ends. -/
def findCycle? (graph : DependencyGraph) : Option (List VariableId) :=
  match graph.search with
  | .error cycle => some cycle
  | .ok _ => none

/-- List a variable behind everything it requires, unless it is listed
already. -/
def listBehindRequirements (graph : DependencyGraph) : Nat → List VariableId → VariableId →
    List VariableId
  | 0, listed, _ => listed
  | bound + 1, listed, id =>
    if id ∈ listed then listed
    else (graph.requirements id).foldl (graph.listBehindRequirements bound) listed ++ [id]

/-- All variables, each behind everything it requires, provided that there is
no cycle. -/
def listing (graph : DependencyGraph) : List VariableId :=
  graph.nodes.foldl (graph.listBehindRequirements graph.nodes.length) []

/-- The order in which the variables can be evaluated, or a cycle. -/
def sort (graph : DependencyGraph) : Except (List VariableId) (List VariableId) :=
  match graph.findCycle? with
  | some cycle => .error cycle
  | none => .ok graph.listing

end DependencyGraph
end CharacterSheet
