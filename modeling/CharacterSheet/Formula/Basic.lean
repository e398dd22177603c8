import CharacterSheet.FirstOccurrences
import CharacterSheet.Formula.Parser
import CharacterSheet.Json.Record
import CharacterSheet.Json.Writer
import CharacterSheet.Variable

/-!
# Formulas

A formula is the numeric leaf of all rule data: a plain expression, or a
switch that compares an expression with the values of some cases and takes the
result of the first case that matches.

A formula has a value on every index.  A text that is no expression counts as
zero where a number is needed; in a switch, two sides that are not both
expressions are compared as texts instead.
-/

namespace CharacterSheet

namespace Formula

/-- The value of an expression text, or why it is none. -/
def tryResolve (text : String) (index : Index) : Except SyntaxError Float :=
  (Expression.parse text).map (·.evaluate index)

/-- The value of an expression text, zero if it is none. -/
def resolve (text : String) (index : Index) : Float :=
  match tryResolve text index with
  | .ok value => value
  | .error _ => 0

/-- One case of a switch. -/
structure Case where
  value : String
  relation : Comparison
  result : String
  deriving DecidableEq

/-- Cases over a common expression, and the result if none matches. -/
structure Switch where
  subject : String
  cases : List Case
  otherwise : String
  deriving DecidableEq

/-- Compare two texts, blanks around them aside.  Only equality and its
negation apply to texts. -/
def textsCompare (relation : Comparison) (left right : String) : Bool :=
  match relation with
  | .equal => Text.trim left.toList == Text.trim right.toList
  | .different => Text.trim left.toList != Text.trim right.toList
  | _ => false

/-- Whether a case matches the subject of a switch. -/
def Case.matchesSubject (choice : Case) (subject : String) (index : Index) : Bool :=
  match tryResolve subject index, tryResolve choice.value index with
  | .ok left, .ok right => choice.relation.holds left right
  | _, _ => textsCompare choice.relation subject choice.value

namespace Switch

/-- The result of the first case that matches. -/
def evaluate (switch : Switch) (index : Index) : Float :=
  match switch.cases.find? fun choice => choice.matchesSubject switch.subject index with
  | some choice => resolve choice.result index
  | none => resolve switch.otherwise index

end Switch

end Formula

/-- A formula: an expression text or a switch. -/
inductive Formula where
  | plain (expression : String)
  | switch (switch : Formula.Switch)
  deriving DecidableEq

namespace Formula

/-- The value of a formula. -/
def evaluate (formula : Formula) (index : Index) : Float :=
  match formula with
  | plain expression => resolve expression index
  | switch cases => cases.evaluate index

/-- All expression texts of a formula, in the order they are written. -/
def texts : Formula → List String
  | plain expression => [expression]
  | switch cases =>
    cases.subject :: cases.cases.flatMap (fun choice => [choice.value, choice.result]) ++
      [cases.otherwise]

/-- The keys referred to in a text. -/
def keysIn : List Char → List String
  | [] => []
  | c :: rest =>
    let key := rest.takeWhile isKeyChar
    if c = '@' && !key.isEmpty then String.ofList key :: keysIn rest else keysIn rest

/-- The keys that a formula refers to, in the order they first appear. -/
def references (formula : Formula) : List String :=
  firstOccurrences (formula.texts.flatMap fun text => keysIn text.toList)

/-- The custom variables that a formula refers to. -/
def customVariables (formula : Formula) : List VariableId :=
  formula.references.filterMap VariableId.ofIndexKey?

/-- A short text that identifies the formula. -/
def describe : Formula → String
  | plain expression => expression
  | switch cases => "switch(" ++ cases.subject ++ ")"

/-- An expression text as data: a string, or a number that stands for its own
text. -/
def expressionText? : Json → Option String
  | .str text => some text
  | .num number => some number.text
  | _ => none

namespace Case

def toJson (choice : Case) : Json :=
  .object [("caseValue", .str choice.value), ("operator", choice.relation.toJson),
    ("resultExpression", .str choice.result)]

def ofJson? : Json → Option Case :=
  Json.record? fun members => do
    let value ← members.required "caseValue" expressionText?
    let relation ← members.defaulted "operator" Comparison.ofJson? .equal
    let result ← members.required "resultExpression" expressionText?
    return ⟨value, relation, result⟩

end Case

namespace Switch

def toJson (switch : Switch) : Json :=
  .object [("switchExpression", .str switch.subject),
    ("cases", Json.ofList Case.toJson switch.cases), ("defaultValue", .str switch.otherwise)]

def ofJson? : Json → Option Switch :=
  Json.record? fun members => do
    let subject ← members.required "switchExpression" expressionText?
    let cases ← members.required "cases" (Json.list? Case.ofJson?)
    let otherwise ← members.required "defaultValue" expressionText?
    return ⟨subject, cases, otherwise⟩

end Switch

def toJson : Formula → Json
  | plain expression => .object [("expression", .str expression)]
  | switch cases => cases.toJson

/-- The formula that data denotes.  Data that fits a switch is one; other data
may be a plain expression. -/
def ofJson? (value : Json) : Option Formula :=
  match Switch.ofJson? value with
  | some cases => some (.switch cases)
  | none =>
    value.members?.bind fun members =>
      (members.required "expression" expressionText?).map .plain

end Formula

end CharacterSheet
