import CharacterSheet.Comparison
import CharacterSheet.Json.Reader
import CharacterSheet.Numeric.Rounding
import CharacterSheet.Text.Blank

/-!
# Tokens of path queries

A path query is a sequence of tokens, which may be set apart by blanks.  Three
kinds of literal are quoted: names in double quotes, texts in single quotes
and JSON values in backticks.  Inside each, a backslash makes the next
character stand for itself, whatever it is.
-/

namespace CharacterSheet
namespace Query

/-- A token of a path query. -/
inductive Token where
  | name (text : String)
  | quotedName (text : String)
  | text (value : String)
  | literal (value : Json)
  | number (value : Float)
  | dot
  | star
  | current
  | comma
  | opening
  | closing
  | filter
  | flatten
  | openingGroup
  | closingGroup
  | pipe
  | or
  | and
  | not
  | compare (relation : Comparison)
  deriving Inhabited

namespace Token

/-- The name of a relation in error texts. -/
def relationName : Comparison → String
  | .equal => "Eq"
  | .different => "Ne"
  | .less => "Lt"
  | .atMost => "Le"
  | .greater => "Gt"
  | .atLeast => "Ge"

/-- The name of a token in error texts. -/
def describe : Token → String
  | name _ => "Identifier"
  | quotedName _ => "QuotedIdentifier"
  | text _ => "RawString"
  | literal _ => "Literal"
  | number _ => "Number"
  | dot => "Dot"
  | star => "Star"
  | current => "At"
  | comma => "Comma"
  | opening => "LBracket"
  | closing => "RBracket"
  | filter => "Filter"
  | flatten => "Flatten"
  | openingGroup => "LParen"
  | closingGroup => "RParen"
  | pipe => "Pipe"
  | or => "Or"
  | and => "And"
  | not => "Not"
  | compare relation => "Comparator(" ++ relationName relation ++ ")"

end Token

/-- Why a text is not a path query.  Errors of the parser carry a position,
the number of tokens passed when the error was met. -/
inductive SyntaxError where
  | invalidNumber (text : String)
  | unterminated (quote : Char)
  | invalidLiteral
  | unexpectedCharacter (c : Char)
  | unexpectedEnd (position : Nat)
  | unexpectedToken (token : String) (position : Nat)
  | expectedToken (token : String) (position : Nat)
  | expectedIndex (position : Nat)
  | expectedName (position : Nat)
  | afterProjection (position : Nat)
  | unknownFunction (name : String) (position : Nat)
  | argumentCount (name : String) (expected actual : Nat) (position : Nat)
  | trailingInput (position : Nat)
  | tooDeep (position : Nat)
  deriving DecidableEq

namespace SyntaxError

/-- A message with the position of its error. -/
def located (text : String) (position : Nat) : String :=
  text ++ " at token " ++ toString position

def message : SyntaxError → String
  | invalidNumber text => "invalid number '" ++ text ++ "'"
  | unterminated quote => "unterminated " ++ quote.toString ++ " literal"
  | invalidLiteral => "invalid JSON literal"
  | unexpectedCharacter c => "unexpected character '" ++ c.toString ++ "'"
  | unexpectedEnd position => located "unexpected end of query" position
  | unexpectedToken token position => located ("unexpected " ++ token) position
  | expectedToken token position => located ("expected " ++ token) position
  | expectedIndex position => located "expected index or '*' inside brackets" position
  | expectedName position => located "expected field name after '.'" position
  | afterProjection position => located "unexpected token after projection" position
  | unknownFunction name position => located ("unknown function '" ++ name ++ "'") position
  | argumentCount name expected actual position =>
    located ("'" ++ name ++ "' takes " ++ toString expected ++ " argument(s), got " ++
      toString actual) position
  | trailingInput position => located "unexpected trailing input" position
  | tooDeep position => located "nested too deeply" position

end SyntaxError

namespace Token

/-- Whether a name may begin with a character. -/
def isNameStart (c : Char) : Bool :=
  c.isAlpha || c = '_'

/-- Whether a name may go on with a character. -/
def isNameChar (c : Char) : Bool :=
  c.isAlphanum || c = '_'

/-- Whether a number may go on with a character. -/
def isNumberChar (c : Char) : Bool :=
  c.isDigit || c = '.'

/-- Whether a number begins with a character before a given rest: a digit, or
a minus sign directly before one. -/
def isNumberStart (first : Char) (rest : List Char) : Bool :=
  first.isDigit || (first = '-' && (rest.head?.map Char.isDigit).getD false)

/-- Read the rest of a quoted literal behind its opening quote, given the
characters read so far in reverse.  A backslash at the very end stands for
itself. -/
def readQuoted? (quote : Char) (seen : List Char) : List Char → Option (List Char × List Char)
  | [] => none
  | '\\' :: c :: rest => readQuoted? quote (c :: seen) rest
  | c :: rest =>
    if c = quote then some (seen.reverse, rest) else readQuoted? quote (c :: seen) rest

/-- The token of a quoted literal. -/
def ofQuoted (quote : Char) (content : List Char) : Except SyntaxError Token :=
  if quote = '"' then .ok (quotedName (String.ofList content))
  else if quote = '\'' then .ok (text (String.ofList content))
  else
    match Json.parse? (Text.trim content) with
    | some value => .ok (literal value)
    | none => .error .invalidLiteral

/-- The token of one or two characters that are no part of a name, number or
quoted literal, and the rest of the text. -/
def symbol? : Char → List Char → Option (Token × List Char)
  | '[', '?' :: rest => some (filter, rest)
  | '[', ']' :: rest => some (flatten, rest)
  | '[', rest => some (opening, rest)
  | '|', '|' :: rest => some (or, rest)
  | '|', rest => some (pipe, rest)
  | '&', '&' :: rest => some (and, rest)
  | '!', '=' :: rest => some (compare .different, rest)
  | '!', rest => some (not, rest)
  | '=', '=' :: rest => some (compare .equal, rest)
  | '<', '=' :: rest => some (compare .atMost, rest)
  | '<', rest => some (compare .less, rest)
  | '>', '=' :: rest => some (compare .atLeast, rest)
  | '>', rest => some (compare .greater, rest)
  | '.', rest => some (dot, rest)
  | '*', rest => some (star, rest)
  | '@', rest => some (current, rest)
  | ',', rest => some (comma, rest)
  | ']', rest => some (closing, rest)
  | '(', rest => some (openingGroup, rest)
  | ')', rest => some (closingGroup, rest)
  | _, _ => none

/-- The token that begins with a character that is not blank, and the rest of
the text. -/
def scanOne (first : Char) (rest : List Char) : Except SyntaxError (Token × List Char) :=
  if isNameStart first then
    let (content, rest) := (first :: rest).span isNameChar
    .ok (name (String.ofList content), rest)
  else if isNumberStart first rest then
    let (digits, rest) := rest.span isNumberChar
    match Numeric.readFloat? (first :: digits) with
    | some value => .ok (number value, rest)
    | none => .error (.invalidNumber (String.ofList (first :: digits)))
  else if first = '"' || first = '\'' || first = '\x60' then
    match readQuoted? first [] rest with
    | some (content, rest) => do
      let token ← ofQuoted first content
      return (token, rest)
    | none => .error (.unterminated first)
  else
    match symbol? first rest with
    | some (token, rest) => .ok (token, rest)
    | none => .error (.unexpectedCharacter first)

/-- The tokens of a text, given a bound on its length. -/
def scanWithin : Nat → List Char → Except SyntaxError (List Token)
  | _, [] => .ok []
  | 0, _ :: _ => .error (.tooDeep 0)
  | bound + 1, c :: rest =>
    if Text.isBlank c then scanWithin bound rest
    else do
      let (token, rest) ← scanOne c rest
      let tokens ← scanWithin bound rest
      return token :: tokens

/-- The tokens of a text. -/
def scan (text : List Char) : Except SyntaxError (List Token) :=
  scanWithin text.length text

end Token

end Query
end CharacterSheet
