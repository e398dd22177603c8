import CharacterSheet.Formula.Token
import CharacterSheet.Index.Basic

/-!
# Expressions and their values

An expression is arithmetic over numbers and references to the index.  Its
value is always defined: an unknown key counts as zero, division by zero gives
zero, a comparison gives one or zero, and a result that is not finite is
replaced by zero at the end.
-/

namespace CharacterSheet
namespace Formula

/-- The functions that expressions can call. -/
inductive Builtin where
  | floor
  | ceiling
  | round
  | truncate
  | absolute
  | squareRoot
  | minimum
  | maximum
  deriving DecidableEq

namespace Builtin

def all : List Builtin :=
  [floor, ceiling, round, truncate, absolute, squareRoot, minimum, maximum]

def name : Builtin → String
  | floor => "floor"
  | ceiling => "ceil"
  | round => "round"
  | truncate => "trunc"
  | absolute => "abs"
  | squareRoot => "sqrt"
  | minimum => "min"
  | maximum => "max"

def ofName? (text : String) : Option Builtin :=
  all.find? fun function => function.name = text

/-- Whether the function takes any positive number of arguments rather than
exactly one. -/
def takesMany : Builtin → Bool
  | minimum | maximum => true
  | _ => false

/-- Whether the function can be called with so many arguments. -/
def accepts (function : Builtin) (count : Nat) : Bool :=
  if function.takesMany then 0 < count else count == 1

/-- The value of a call. -/
def apply (function : Builtin) (arguments : List Float) : Float :=
  let first := arguments.headD 0
  match function with
  | floor => Numeric.floor first
  | ceiling => Numeric.ceiling first
  | round => Numeric.round first
  | truncate => Numeric.truncate first
  | absolute => first.abs
  | squareRoot => first.sqrt
  | minimum => arguments.foldl Numeric.minimum (1.0 / 0.0)
  | maximum => arguments.foldl Numeric.maximum (-1.0 / 0.0)

end Builtin

/-- The operations between two operands. -/
inductive Operation where
  | add
  | subtract
  | multiply
  | divide
  | modulo
  | power
  | compare (relation : Comparison)
  deriving DecidableEq

namespace Operation

/-- The value of an operation. -/
def apply (operation : Operation) (left right : Float) : Float :=
  match operation with
  | add => left + right
  | subtract => left - right
  | multiply => left * right
  | divide => if right == 0 then 0 else left / right
  | modulo => if right == 0 then 0 else Numeric.remainder left right
  | power => left ^ right
  | compare relation => if relation.holds left right then 1 else 0

end Operation

/-- An arithmetic expression. -/
inductive Expression where
  | number (value : Float)
  | reference (key : String)
  | negate (operand : Expression)
  | binary (operation : Operation) (left right : Expression)
  | call (function : Builtin) (arguments : List Expression)
  deriving Inhabited

namespace Expression

mutual

/-- The value before it is made finite. -/
def rawValue (index : Index) : Expression → Float
  | number value => value
  | reference key => index.value key
  | negate operand => -operand.rawValue index
  | binary operation left right =>
    operation.apply (left.rawValue index) (right.rawValue index)
  | call function arguments => function.apply (rawValues index arguments)

/-- The values of arguments. -/
def rawValues (index : Index) : List Expression → List Float
  | [] => []
  | first :: rest => first.rawValue index :: rawValues index rest

end

/-- The value of an expression. -/
def evaluate (expression : Expression) (index : Index) : Float :=
  Numeric.orZero (expression.rawValue index)

end Expression

end Formula
end CharacterSheet
