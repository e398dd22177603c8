import CharacterSheet.Formula.Expression

/-!
# Parsing expressions

The grammar of expressions, loosest level first:

* a comparison is a sum, or several joined by relations;
* a sum joins products by `+` and `-`;
* a product joins signed terms by `*`, `/` and `%`;
* a signed term is a sign before a signed term, or a power;
* a power is an atom, which may be raised to a signed term;
* an atom is a number, a reference, a call, or a comparison in parentheses.

Joined operands group to the left.  The three levels that join operands are
read by the same functions, which take the `Level` as an argument.  Each
function below reads one level from the front of the tokens and returns the
rest.  The first number bounds the nesting of calls; `Expression.parse`
supplies a bound that grows with the number of tokens.
-/

namespace CharacterSheet
namespace Formula
namespace Parser

/-- What is read from the front of some tokens, with the tokens behind it. -/
abbrev WithRest (α : Type) := α × List Token

/-- A level at which operators join operands. -/
inductive Level where
  | comparison
  | sum
  | product
  deriving DecidableEq

/-- The operation that a token stands for at a level. -/
def Level.operation? : Level → Token → Option Operation
  | .comparison, .compare relation => some (.compare relation)
  | .sum, .plus => some .add
  | .sum, .minus => some .subtract
  | .product, .times => some .multiply
  | .product, .divide => some .divide
  | .product, .modulo => some .modulo
  | _, _ => none

/-- Require a token and pass it. -/
def expect (expected : Token) (error : SyntaxError) :
    List Token → Except SyntaxError (List Token)
  | token :: rest => if token = expected then .ok rest else .error error
  | [] => .error error

mutual

/-- Read operands that are joined at a level. -/
def joined (level : Level) : Nat → List Token → Except SyntaxError (WithRest Expression)
  | 0, _ => .error .tooDeep
  | depth + 1, tokens => do
    let (left, rest) ← operand level depth tokens
    moreOperands level depth left rest

/-- Read the operators and operands that follow a left operand. -/
def moreOperands (level : Level) :
    Nat → Expression → List Token → Except SyntaxError (WithRest Expression)
  | 0, _, _ => .error .tooDeep
  | _ + 1, left, [] => .ok (left, [])
  | depth + 1, left, token :: rest =>
    match level.operation? token with
    | none => .ok (left, token :: rest)
    | some operation => do
      let (right, rest) ← operand level depth rest
      moreOperands level depth (.binary operation left right) rest

/-- Read one of the operands that are joined at a level. -/
def operand (level : Level) : Nat → List Token → Except SyntaxError (WithRest Expression)
  | 0, _ => .error .tooDeep
  | depth + 1, tokens =>
    match level with
    | .comparison => joined .sum depth tokens
    | .sum => joined .product depth tokens
    | .product => signed depth tokens

/-- Read a signed term. -/
def signed : Nat → List Token → Except SyntaxError (WithRest Expression)
  | 0, _ => .error .tooDeep
  | depth + 1, tokens =>
    match tokens with
    | .minus :: rest => do
      let (operand, rest) ← signed depth rest
      return (.negate operand, rest)
    | .plus :: rest => signed depth rest
    | _ => power depth tokens

/-- Read a power. -/
def power : Nat → List Token → Except SyntaxError (WithRest Expression)
  | 0, _ => .error .tooDeep
  | depth + 1, tokens => do
    let (base, rest) ← atom depth tokens
    match rest with
    | .power :: rest => do
      let (exponent, rest) ← signed depth rest
      return (.binary .power base exponent, rest)
    | _ => return (base, rest)

/-- Read an atom. -/
def atom : Nat → List Token → Except SyntaxError (WithRest Expression)
  | 0, _ => .error .tooDeep
  | _ + 1, [] => .error .unexpectedEnd
  | depth + 1, token :: rest =>
    match token with
    | .number value => .ok (.number value, rest)
    | .reference key => .ok (.reference key, rest)
    | .opening => do
      let (inner, rest) ← joined .comparison depth rest
      let rest ← expect .closing .unclosedGroup rest
      return (inner, rest)
    | .name name =>
      match Builtin.ofName? name with
      | none => .error (.unknownFunction name)
      | some function => do
        let rest ← expect .opening .missingArguments rest
        let (arguments, rest) ← commaSeparated depth rest
        let rest ← expect .closing .unclosedArguments rest
        if function.accepts arguments.length then return (.call function arguments, rest)
        else .error (.argumentCount name)
    | _ => .error .unexpectedToken

/-- Read one or more comparisons separated by commas. -/
def commaSeparated : Nat → List Token → Except SyntaxError (WithRest (List Expression))
  | 0, _ => .error .tooDeep
  | depth + 1, tokens => do
    let (first, rest) ← joined .comparison depth tokens
    match rest with
    | .comma :: rest => do
      let (more, rest) ← commaSeparated depth rest
      return (first :: more, rest)
    | _ => return ([first], rest)

end

/-- A bound on the nesting of calls that reading so many tokens needs: nine
calls lie between two tokens, and one more separates the operands of a
level. -/
def depthBound (count : Nat) : Nat :=
  10 * count + 10

end Parser

namespace Expression

/-- The expression that a list of tokens spells out as a whole. -/
def ofTokens (tokens : List Token) : Except SyntaxError Expression := do
  let (expression, rest) ← Parser.joined .comparison (Parser.depthBound tokens.length) tokens
  if rest.isEmpty then return expression else .error .trailingInput

/-- Read the text of an expression. -/
def parse (text : String) : Except SyntaxError Expression := do
  ofTokens (← Token.scan text.toList)

end Expression

end Formula
end CharacterSheet
