import CharacterSheet.Index.Basic
import CharacterSheet.Json.Basic
import CharacterSheet.Variable

/-!
# Errors and warnings

Few things are errors: an expression or a query that cannot be parsed,
variables that depend on each other in a circle, a key published twice, and a
configuration that cannot be run.  Calculating a sheet never fails; whatever
goes wrong on the way is collected as a list of warnings.
-/

namespace CharacterSheet

/-- What can be wrong with rule content or a configuration. -/
inductive SheetError where
  | cycle (path : List VariableId)
  | invalidExpression (text problem : String)
  | invalidQuery (text problem : String)
  | indexConflict (conflict : Index.Conflict)
  | invalidConfig (problem : String)
  | unreadableConfig (problem : String)

namespace SheetError

/-- A circle of variables as a text. -/
def cycleText (path : List VariableId) : String :=
  " -> ".intercalate (path.map (·.name))

def message : SheetError → String
  | cycle [] => "Cycle detected: (empty cycle)"
  | cycle path => "Cycle detected: " ++ cycleText path
  | invalidExpression text problem => "Invalid expression '" ++ text ++ "': " ++ problem
  | invalidQuery text problem => "Invalid path query '" ++ text ++ "': " ++ problem
  | indexConflict conflict => conflict.refusal
  | invalidConfig problem => "Invalid configuration: " ++ problem
  | unreadableConfig problem => "Configuration serialization failed: " ++ problem

end SheetError

/-- What is worth telling about a calculated sheet. -/
inductive SheetWarning where
  | indexConflict (conflict : Index.Conflict)
  | dependencyCycle (path : List VariableId)
  /-- A property of an entity cannot be read.  Only its name is kept: what the
  decoder objects to in the value, a text that would follow the name, is left
  out. -/
  | invalidEntityData (entity property : String)
  | other (text : String)

namespace SheetWarning

/-- The warning that an error becomes when the calculation goes on. -/
def ofError : SheetError → SheetWarning
  | .indexConflict conflict => indexConflict conflict
  | .cycle path => dependencyCycle path
  | error => other error.message

def message : SheetWarning → String
  | indexConflict conflict => conflict.warning
  | dependencyCycle path => "Custom variable cycle: " ++ SheetError.cycleText path
  | invalidEntityData entity property =>
    "Entity '" ++ entity ++ "' has invalid data: " ++ property
  | other text => text

/-- The members that describe the warning as data, beside its wording. -/
def details : SheetWarning → List (String × Json)
  | indexConflict conflict =>
    [("type", .str "index_conflict"), ("key", .str conflict.key),
      ("existing", .ofFloat conflict.existing), ("attempted", .ofFloat conflict.attempted)]
  | dependencyCycle path =>
    [("type", .str "dependency_cycle"), ("path", .ofList (fun id => .str id.name) path)]
  | invalidEntityData entity property =>
    [("type", .str "invalid_entity_data"), ("entity_id", .str entity), ("message", .str property)]
  | other text => [("type", .str "other"), ("message", .str text)]

def toJson (warning : SheetWarning) : Json :=
  .object (warning.details ++ [("display", .str warning.message)])

end SheetWarning

end CharacterSheet
