import CharacterSheet.Query.Expression

/-!
# Parsing path queries

Queries are parsed by precedence.  Every token that can follow an operand has
a binding power, and `expression` goes on as long as the next token binds more
strongly than required.  From loose to tight these are the pipe, "or", "and",
the comparisons, flattening, projections, filters, negation, the dot and
brackets; each groups to the left.

Behind a projection stands the query that is applied to every item.  It ends
at the first token that binds more loosely than a projection, so a pipe, a
logical operator or a comparison applies to the projected array as a whole.

The functions share two parameters: the number of tokens of the whole query,
from which the position of an error is counted, and a bound on the nesting of
calls.  `Expression.parse` supplies both.
-/

namespace CharacterSheet
namespace Query
namespace Parser

/-- What is read from the front of some tokens, with the tokens behind it. -/
abbrev WithRest (α : Type) := α × List Token

/-- How strongly a token binds the operand before it.  Tokens that cannot
follow an operand do not bind at all. -/
def bindingPower : Token → Nat
  | .pipe => 1
  | .or => 2
  | .and => 3
  | .compare _ => 5
  | .flatten => 9
  | .star => 20
  | .filter => 21
  | .not => 35
  | .dot => 40
  | .opening => 55
  | .openingGroup => 60
  | _ => 0

/-- The binding power below which a projection ends. -/
def projectionEnd : Nat := 10

/-- The position of the next token, counted in tokens that are passed. -/
def position (total : Nat) (rest : List Token) : Nat :=
  total - rest.length

/-- Pass a closing bracket. -/
def expectClosing (total : Nat) : List Token → Except SyntaxError (List Token)
  | .closing :: rest => .ok rest
  | tokens =>
    .error (.expectedToken Token.closing.describe (position total (tokens.drop 1)))

/-- Pass a closing parenthesis. -/
def expectClosingGroup (total : Nat) : List Token → Except SyntaxError (List Token)
  | .closingGroup :: rest => .ok rest
  | tokens =>
    .error (.expectedToken Token.closingGroup.describe (position total (tokens.drop 1)))

/-- An index behind a query; directly at the front there is nothing to chain
it to. -/
def indexed (left : Expression) (place : Int) : Expression :=
  match left with
  | .current => .index place
  | _ => .chain left (.index place)

/-- The item position that a number in brackets stands for, limited to 64
bits. -/
def itemPosition (value : Float) : Int :=
  let limit := Int.ofNat (Numeric.powerOfTwo 63)
  Numeric.toIntWithin (-limit) (limit - 1) value

/-- Check the number of arguments of a call. -/
def checkedCall (total : Nat) (function : Builtin) (arguments : List Expression)
    (rest : List Token) : Except SyntaxError (WithRest Expression) :=
  match function.arity? with
  | none => .ok (.call function arguments, rest)
  | some expected =>
    if arguments.length = expected then .ok (.call function arguments, rest)
    else
      .error (.argumentCount function.name expected arguments.length (position total rest))

mutual

/-- Read a query as far as its operators bind more strongly than given. -/
def expression (total : Nat) : Nat → Nat → List Token →
    Except SyntaxError (WithRest Expression)
  | 0, _, tokens => .error (.tooDeep (position total tokens))
  | depth + 1, power, tokens => do
    let (left, rest) ← operand total depth tokens
    extended total depth power left rest

/-- Extend an operand by the tokens that bind more strongly than given. -/
def extended (total : Nat) : Nat → Nat → Expression → List Token →
    Except SyntaxError (WithRest Expression)
  | 0, _, _, tokens => .error (.tooDeep (position total tokens))
  | _ + 1, _, left, [] => .ok (left, [])
  | depth + 1, power, left, token :: rest =>
    if power < bindingPower token then do
      let (left, rest) ← extension total depth left token rest
      extended total depth power left rest
    else .ok (left, token :: rest)

/-- Read an operand. -/
def operand (total : Nat) : Nat → List Token → Except SyntaxError (WithRest Expression)
  | 0, tokens => .error (.tooDeep (position total tokens))
  | _ + 1, [] => .error (.unexpectedEnd (position total []))
  | depth + 1, token :: rest =>
    match token with
    | .current => .ok (.current, rest)
    | .name name =>
      match rest with
      | .openingGroup :: rest => callOf total depth name rest
      | _ => .ok (.field name, rest)
    | .quotedName name => .ok (.field name, rest)
    | .text value => .ok (.literal (.str value), rest)
    | .literal value => .ok (.literal value, rest)
    | .number value => .ok (.literal (.ofComputed value), rest)
    | .star => do
      let (right, rest) ← projected total depth (bindingPower .star) rest
      return (.projectMembers .current right, rest)
    | .flatten => do
      let (right, rest) ← projected total depth (bindingPower .flatten) rest
      return (.project (.flatten .current) right, rest)
    | .opening => bracketed total depth .current rest
    | .filter => filtered total depth .current rest
    | .not => do
      let (inner, rest) ← expression total depth (bindingPower .not) rest
      return (.not inner, rest)
    | .openingGroup => do
      let (inner, rest) ← expression total depth 0 rest
      let rest ← expectClosingGroup total rest
      return (inner, rest)
    | other => .error (.unexpectedToken other.describe (position total rest))

/-- Read what a token makes of the operand before it. -/
def extension (total : Nat) : Nat → Expression → Token → List Token →
    Except SyntaxError (WithRest Expression)
  | 0, _, _, tokens => .error (.tooDeep (position total tokens))
  | depth + 1, left, token, rest =>
    match token with
    | .dot =>
      match rest with
      | .star :: rest => do
        let (right, rest) ← projected total depth (bindingPower .star) rest
        return (.projectMembers left right, rest)
      | _ => do
        let (right, rest) ← named total depth (bindingPower .dot) rest
        return (.chain left right, rest)
    | .pipe => do
      let (right, rest) ← expression total depth (bindingPower .pipe) rest
      return (.pipe left right, rest)
    | .or => do
      let (right, rest) ← expression total depth (bindingPower .or) rest
      return (.or left right, rest)
    | .and => do
      let (right, rest) ← expression total depth (bindingPower .and) rest
      return (.and left right, rest)
    | .compare relation => do
      let (right, rest) ← expression total depth (bindingPower (.compare relation)) rest
      return (.compare relation left right, rest)
    | .flatten => do
      let (right, rest) ← projected total depth (bindingPower .flatten) rest
      return (.project (.flatten left) right, rest)
    | .filter => filtered total depth left rest
    | .opening => bracketed total depth left rest
    | other => .error (.unexpectedToken other.describe (position total rest))

/-- Read what follows an opening bracket: an index, or a star that projects
the items of an array. -/
def bracketed (total : Nat) : Nat → Expression → List Token →
    Except SyntaxError (WithRest Expression)
  | 0, _, tokens => .error (.tooDeep (position total tokens))
  | _ + 1, _, [] => .error (.expectedIndex (position total []))
  | depth + 1, left, token :: rest =>
    match token with
    | .number value =>
      if Numeric.isWhole value then do
        let rest ← expectClosing total rest
        return (indexed left (itemPosition value), rest)
      else .error (.expectedIndex (position total rest))
    | .star => do
      let rest ← expectClosing total rest
      let (right, rest) ← projected total depth (bindingPower .star) rest
      return (.project left right, rest)
    | _ => .error (.expectedIndex (position total rest))

/-- Read a filter behind its opening mark. -/
def filtered (total : Nat) : Nat → Expression → List Token →
    Except SyntaxError (WithRest Expression)
  | 0, _, tokens => .error (.tooDeep (position total tokens))
  | depth + 1, left, tokens => do
    let (condition, rest) ← expression total depth 0 tokens
    let rest ← expectClosing total rest
    let (right, rest) ← projected total depth (bindingPower .filter) rest
    return (.filter left condition right, rest)

/-- Read a query that has to begin with a name. -/
def named (total : Nat) : Nat → Nat → List Token → Except SyntaxError (WithRest Expression)
  | 0, _, tokens => .error (.tooDeep (position total tokens))
  | depth + 1, power, tokens =>
    match tokens with
    | .name _ :: _ | .quotedName _ :: _ => expression total depth power tokens
    | _ => .error (.expectedName (position total tokens))

/-- Read the query that a projection applies to every item. -/
def projected (total : Nat) : Nat → Nat → List Token → Except SyntaxError (WithRest Expression)
  | 0, _, tokens => .error (.tooDeep (position total tokens))
  | _ + 1, _, [] => .ok (.current, [])
  | depth + 1, power, token :: rest =>
    if bindingPower token < projectionEnd then .ok (.current, token :: rest)
    else
      match token with
      | .opening | .filter => expression total depth power (token :: rest)
      | .dot => named total depth power rest
      | _ => .error (.afterProjection (position total (token :: rest)))

/-- Read a call of a function behind its name and opening parenthesis. -/
def callOf (total : Nat) : Nat → String → List Token → Except SyntaxError (WithRest Expression)
  | 0, _, tokens => .error (.tooDeep (position total tokens))
  | depth + 1, name, tokens =>
    match Builtin.ofName? name with
    | none => .error (.unknownFunction name (position total tokens))
    | some function => do
      let (arguments, rest) ←
        match tokens with
        | .closingGroup :: _ => pure ([], tokens)
        | _ => commaSeparated total depth tokens
      let rest ← expectClosingGroup total rest
      checkedCall total function arguments rest

/-- Read one or more queries separated by commas. -/
def commaSeparated (total : Nat) : Nat → List Token →
    Except SyntaxError (WithRest (List Expression))
  | 0, tokens => .error (.tooDeep (position total tokens))
  | depth + 1, tokens => do
    let (first, rest) ← expression total depth 0 tokens
    match rest with
    | .comma :: rest => do
      let (more, rest) ← commaSeparated total depth rest
      return (first :: more, rest)
    | _ => return ([first], rest)

end

/-- A bound on the nesting of calls that reading so many tokens needs: at most
four calls lie between two tokens. -/
def depthBound (count : Nat) : Nat :=
  8 * count + 8

end Parser

namespace Expression

/-- The query that a list of tokens spells out as a whole. -/
def ofTokens (tokens : List Token) : Except SyntaxError Expression := do
  let total := tokens.length
  let (expression, rest) ← Parser.expression total (Parser.depthBound total) 0 tokens
  if rest.isEmpty then return expression
  else .error (.trailingInput (Parser.position total rest))

/-- Read the text of a path query. -/
def parse (text : String) : Except SyntaxError Expression := do
  ofTokens (← Token.scan text.toList)

end Expression

end Query
end CharacterSheet
