import CharacterSheet.Comparison
import CharacterSheet.Numeric.Decimal
import CharacterSheet.Text.Blank

/-!
# Tokens of expressions

The text of an expression is a sequence of tokens, which may be set apart by
blanks.  A number is the longest run of digits and points.  A reference is an
`@` followed by the longest run of key characters, so a minus sign directly
behind a key belongs to the key.
-/

namespace CharacterSheet
namespace Formula

/-- Why a text is not an expression. -/
inductive SyntaxError where
  | invalidNumber (text : String)
  | emptyReference
  | unexpectedCharacter (c : Char)
  | unknownFunction (name : String)
  | missingArguments
  | unclosedArguments
  | argumentCount (name : String)
  | unclosedGroup
  | unexpectedToken
  | unexpectedEnd
  | trailingInput
  | tooDeep
  deriving DecidableEq

namespace SyntaxError

def message : SyntaxError → String
  | invalidNumber text => "invalid number '" ++ text ++ "'"
  | emptyReference => "empty reference after '@'"
  | unexpectedCharacter c => "unexpected character '" ++ c.toString ++ "'"
  | unknownFunction name => "unknown function '" ++ name ++ "'"
  | missingArguments => "expected '(' after function name"
  | unclosedArguments => "expected ')' after arguments"
  | argumentCount name => "'" ++ name ++ "' takes exactly one argument"
  | unclosedGroup => "expected ')'"
  | unexpectedToken => "unexpected token"
  | unexpectedEnd => "unexpected end of expression"
  | trailingInput => "unexpected trailing input"
  | tooDeep => "nested too deeply"

end SyntaxError

/-- A token of an expression. -/
inductive Token where
  | number (value : Float)
  | reference (key : String)
  | name (text : String)
  | plus
  | minus
  | times
  | divide
  | modulo
  | power
  | opening
  | closing
  | comma
  | compare (relation : Comparison)
  deriving DecidableEq

/-- Whether a character may stand in a key. -/
def isKeyChar (c : Char) : Bool :=
  c.isAlphanum || c = '.' || c = '_' || c = '-'

/-- Whether a character may stand in a number. -/
def isNumberChar (c : Char) : Bool :=
  c.isDigit || c = '.'

/-- Whether a name may begin with a character. -/
def isNameStart (c : Char) : Bool :=
  c.isAlpha || c = '_'

/-- Whether a name may go on with a character. -/
def isNameChar (c : Char) : Bool :=
  c.isAlphanum || c = '_'

namespace Token

/-- The token of a single character. -/
def ofSymbol? : Char → Option Token
  | '+' => some plus
  | '-' => some minus
  | '*' => some times
  | '/' => some divide
  | '%' => some modulo
  | '^' => some power
  | '(' => some opening
  | ')' => some closing
  | ',' => some comma
  | _ => none

/-- The relation at the front of a text, and the rest. -/
def relation? : Char → List Char → Option (Comparison × List Char)
  | '=', '=' :: rest => some (.equal, rest)
  | '!', '=' :: rest => some (.different, rest)
  | '<', '=' :: rest => some (.atMost, rest)
  | '>', '=' :: rest => some (.atLeast, rest)
  | '<', rest => some (.less, rest)
  | '>', rest => some (.greater, rest)
  | _, _ => none

/-- The token that begins with a character that is not blank, and the rest of
the text. -/
def scanOne (first : Char) (rest : List Char) : Except SyntaxError (Token × List Char) :=
  if isNumberChar first then
    let (text, rest) := (first :: rest).span isNumberChar
    match Numeric.readFloat? text with
    | some value => .ok (number value, rest)
    | none => .error (.invalidNumber (String.ofList text))
  else if first = '@' then
    let (key, rest) := rest.span isKeyChar
    if key.isEmpty then .error .emptyReference else .ok (reference (String.ofList key), rest)
  else if isNameStart first then
    let (text, rest) := (first :: rest).span isNameChar
    .ok (name (String.ofList text), rest)
  else
    match relation? first rest with
    | some (relation, rest) => .ok (compare relation, rest)
    | none =>
      match ofSymbol? first with
      | some token => .ok (token, rest)
      | none => .error (.unexpectedCharacter first)

/-- The tokens of a text, given a bound on its length. -/
def scanWithin : Nat → List Char → Except SyntaxError (List Token)
  | _, [] => .ok []
  | 0, _ :: _ => .error .tooDeep
  | bound + 1, c :: rest =>
    if Text.isBlank c then scanWithin bound rest
    else do
      let (token, rest) ← scanOne c rest
      let tokens ← scanWithin bound rest
      return token :: tokens

/-- The tokens of a text. -/
def scan (text : List Char) : Except SyntaxError (List Token) :=
  scanWithin text.length text

end Token

end Formula
end CharacterSheet
