import CharacterSheet.Dependency.Order
import CharacterSheet.Statistic.Basic

/-!
# Custom variables of the sheet

Custom variables are declared by definitions and by changes to variables that
nothing defines.  Since their formulas may refer to each other, they are
evaluated in the order of these references, each on an index that holds the
values of those before it.  Where references go round in a circle, the order
of declaration is kept and a warning tells of it.

Each variable is published twice, under its own name and under its key in the
namespace of custom variables.
-/

namespace CharacterSheet

/-- A custom variable of the sheet. -/
structure VariableStat where
  id : VariableId
  name : String
  stat : Stat

namespace VariableStat

def toJson (calculated : VariableStat) : Json :=
  .object [("variableId", .str calculated.id.name), ("name", .str calculated.name),
    ("stat", calculated.stat.toJson)]

/-- The values published for the variable. -/
def published (calculated : VariableStat) : List (String × Float) :=
  [(calculated.id.indexKey, calculated.stat.total), (calculated.id.name, calculated.stat.total)]

end VariableStat

namespace VariableDefinition

/-- Declare a variable.  A variable without a name is called by its id, and
declaring a variable again adds base sources to it. -/
def declare (declared : List VariableDefinition) (definition : VariableDefinition) :
    List VariableDefinition :=
  if declared.any (·.id == definition.id) then
    declared.map fun known =>
      if known.id == definition.id then
        { known with sources := known.sources ++ definition.sources }
      else known
  else
    let name := if definition.name = "" then definition.id.name else definition.name
    declared ++ [{ definition with name }]

/-- Declare a variable that has no definition, unless it is declared. -/
def declareBare (declared : List VariableDefinition) (id : VariableId) :
    List VariableDefinition :=
  if declared.any (·.id == id) then declared else declared ++ [⟨id, id.name, []⟩]

end VariableDefinition

namespace Calculation

/-- The custom variable that a change affects, if it affects one. -/
def variableTarget? : ChangeTarget → Option VariableId
  | .customVariable id => some id
  | _ => none

/-- The variables that changes affect, without those that belong to a
resource. -/
def affectedVariables (calculation : Calculation) : List VariableId :=
  (calculation.compiled.changes.filterMap fun compiled =>
    variableTarget? compiled.change.target).filter fun id =>
      !calculation.compiled.resources.any (·.owns id)

/-- All custom variables, in the order of declaration. -/
def declarations (calculation : Calculation) : List VariableDefinition :=
  calculation.affectedVariables.foldl VariableDefinition.declareBare
    ((calculation.compiled.definitions calculation.character).foldl VariableDefinition.declare [])

/-- The formulas that the value of a variable comes from. -/
def formulasOf (calculation : Calculation) (definition : VariableDefinition) : List Formula :=
  definition.sources.map (·.formula) ++
    (calculation.compiled.changes.filter fun compiled =>
      compiled.change.target == .customVariable definition.id).map (·.change.formula)

/-- The variables that the formulas of a variable refer to. -/
def requirementsOf (calculation : Calculation) (definition : VariableDefinition) :
    List VariableId :=
  firstOccurrences ((calculation.formulasOf definition).flatMap Formula.customVariables)

/-- The dependencies between all custom variables. -/
def dependencies (calculation : Calculation) : DependencyGraph :=
  .ofDependencies (calculation.declarations.map fun definition =>
    (definition.id, calculation.requirementsOf definition))

/-- The order in which variables are evaluated, with a warning if they depend
on each other in a circle. -/
def evaluationOrder (graph : DependencyGraph) : List VariableId × List SheetWarning :=
  match graph.sort with
  | .ok order => (order, [])
  | .error cycle => (graph.nodes, [.ofError (.cycle cycle)])

/-- Calculate one custom variable. -/
def variableStat (calculation : Calculation) (index : Index) (definition : VariableDefinition) :
    VariableStat :=
  let bases := definition.sources.map fun source =>
    Source.of (source.formula.evaluate index) source.bonusType source.name source.name
  ⟨definition.id, definition.name,
    calculation.resolve (bases ++ calculation.sourcesOf index (.customVariable definition.id))⟩

/-- Calculate variables one after the other, each on an index that holds the
values of those before it. -/
def evaluateInOrder (calculation : Calculation) (index : Index) :
    List VariableDefinition → List VariableStat
  | [] => []
  | definition :: rest =>
    let calculated := calculation.variableStat index definition
    let index := calculated.published.foldl
      (fun index entry => index.publishOrKeep entry.1 entry.2) index
    calculated :: calculation.evaluateInOrder index rest

/-- Calculate all custom variables. -/
def customVariables (calculation : Calculation) (index : Index) :
    PhaseResult (List VariableStat) :=
  let declared := calculation.declarations
  let (order, warnings) := evaluationOrder calculation.dependencies
  let calculated := calculation.evaluateInOrder index
    (order.filterMap fun id => declared.find? (·.id == id))
  { value := calculated
    update := Index.Update.ofList (calculated.flatMap (·.published))
    warnings }

end Calculation

end CharacterSheet
