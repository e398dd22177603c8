import CharacterSheet.Bonus.Table
import CharacterSheet.Error
import CharacterSheet.Json.Reader
import CharacterSheet.Json.Writer
import CharacterSheet.Phase

/-!
# Configuration

A set of rules is configured by its bonus table and the order of the phases.
An order can be run if every phase occurs exactly once, after the phases it
requires, and attacks come last.  `Config.check?` finds the first rule that an
order breaks.
-/

namespace CharacterSheet

/-- The configuration of a set of rules. -/
structure Config where
  bonusTypes : BonusTable
  phaseOrder : List Phase
  deriving DecidableEq, Inhabited

namespace Config

/-- Why an order of phases cannot be run. -/
inductive OrderProblem where
  | count (phase : Phase) (found : Nat)
  | tooEarly (phase required : Phase)
  | notLast
  deriving DecidableEq

def OrderProblem.message : OrderProblem → String
  | count phase found =>
    "phase '" ++ phase.name ++ "' must appear exactly once, found " ++ toString found
  | tooEarly phase required =>
    "phase '" ++ phase.name ++ "' must run after '" ++ required.name ++ "'"
  | notLast => "phase 'attacks' must run last"

/-- The configuration with the default table and order. -/
def default : Config := ⟨BonusTable.default, Phase.all⟩

/-- A phase that does not occur exactly once. -/
def miscounted? (order : List Phase) : Option OrderProblem :=
  Phase.all.findSome? fun phase =>
    let found := order.count phase
    if found = 1 then none else some (.count phase found)

/-- A phase that stands before one it requires, given the phases before. -/
def tooEarly? (before : List Phase) : List Phase → Option OrderProblem
  | [] => none
  | phase :: rest =>
    match phase.requires.find? fun required => !before.contains required with
    | some required => some (.tooEarly phase required)
    | none => tooEarly? (before ++ [phase]) rest

/-- The first problem of an order of phases. -/
def check? (order : List Phase) : Option OrderProblem :=
  match miscounted? order with
  | some problem => some problem
  | none =>
    match tooEarly? [] order with
    | some problem => some problem
    | none => if order.getLast? = some .attacks then none else some .notLast

/-- Whether the configuration can be run, and otherwise why not. -/
def validate (config : Config) : Except SheetError Unit :=
  match check? config.phaseOrder with
  | some problem => .error (.invalidConfig problem.message)
  | none => .ok ()

def toJson (config : Config) : Json :=
  .object [("bonusTypes", config.bonusTypes.toJson),
    ("phaseOrder", .ofList Phase.toJson config.phaseOrder)]

/-- The configuration as it is written. -/
def layout (config : Config) : Json :=
  .obj [("bonusTypes", config.bonusTypes.layout),
    ("phaseOrder", .ofList Phase.toJson config.phaseOrder)]

def ofJson? : Json → Option Config :=
  Json.record? fun members => do
    let bonusTypes ← members.defaulted "bonusTypes" BonusTable.ofJson? BonusTable.default
    let phaseOrder ← members.defaulted "phaseOrder" (Json.list? Phase.ofJson?) Phase.all
    return ⟨bonusTypes, phaseOrder⟩

/-- Why a text is not read as a configuration. -/
inductive ReadError where
  | unreadable
  | invalid (problem : SheetError)

/-- Read a configuration that can be run. -/
def read (text : String) : Except ReadError Config :=
  match (Json.parse? text.toList).bind ofJson? with
  | none => .error .unreadable
  | some config =>
    match config.validate with
    | .ok () => .ok config
    | .error problem => .error (.invalid problem)

/-- Write a configuration, on several lines. -/
def write (config : Config) : String :=
  config.layout.pretty

end Config

end CharacterSheet
