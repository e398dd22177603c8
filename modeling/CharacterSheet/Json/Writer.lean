import CharacterSheet.Json.Basic
import CharacterSheet.Numeric.Layout

/-!
# Writing JSON texts

A value is written without blanks, as `Json.compact`, or with every part of an
array or object on a line of its own, as `Json.pretty`.  Inside strings, only
quotes, backslashes and control characters are escaped.
-/

namespace CharacterSheet

/-- The text of a JSON number.  There is none for a double that is not
finite, which is written as null. -/
def Number.text : Number → String
  | .int value => toString value
  | .float value => if value.isFinite then Numeric.exactText value else "null"

namespace Json

/-- The digit of a number below sixteen. -/
def lowHexDigit (value : Nat) : Char :=
  Nat.digitChar value

/-- A character as it stands inside a string literal. -/
def escapeChar (c : Char) : List Char :=
  match c with
  | '"' => ['\\', '"']
  | '\\' => ['\\', '\\']
  | '\x08' => ['\\', 'b']
  | '\x0c' => ['\\', 'f']
  | '\n' => ['\\', 'n']
  | '\r' => ['\\', 'r']
  | '\t' => ['\\', 't']
  | _ =>
    if c.toNat < 0x20 then
      ['\\', 'u', '0', '0', lowHexDigit (c.toNat / 16), lowHexDigit (c.toNat % 16)]
    else [c]

/-- A text as a string literal. -/
def quote (text : String) : String :=
  "\"" ++ String.ofList (text.toList.flatMap escapeChar) ++ "\""

/-- How the parts of arrays and objects are set apart. -/
structure Spacing where
  /-- What stands before a part or a closing bracket, given how many arrays and
  objects are around it. -/
  lineStart : Nat → String
  /-- What stands behind the colon of a member. -/
  afterColon : String

/-- No blanks. -/
def Spacing.tight : Spacing := ⟨fun _ => "", ""⟩

/-- Every part on a line of its own, indented by two blanks for each array or
object around it. -/
def Spacing.lines : Spacing :=
  ⟨fun depth => "\n" ++ String.ofList (List.replicate (2 * depth) ' '), " "⟩

mutual

/-- The text of a value that has a number of arrays and objects around it. -/
def textWith (spacing : Spacing) (depth : Nat) : Json → String
  | null => "null"
  | bool true => "true"
  | bool false => "false"
  | num value => value.text
  | str value => quote value
  | arr [] => "[]"
  | arr items => "[" ++ itemsWith spacing (depth + 1) items ++ spacing.lineStart depth ++ "]"
  | obj [] => "\x7b\x7d"
  | obj members =>
    "\x7b" ++ membersWith spacing (depth + 1) members ++ spacing.lineStart depth ++ "\x7d"

/-- Items separated by commas. -/
def itemsWith (spacing : Spacing) (depth : Nat) : List Json → String
  | [] => ""
  | [item] => spacing.lineStart depth ++ item.textWith spacing depth
  | item :: rest =>
    spacing.lineStart depth ++ item.textWith spacing depth ++ "," ++ itemsWith spacing depth rest

/-- Members separated by commas. -/
def membersWith (spacing : Spacing) (depth : Nat) : List (String × Json) → String
  | [] => ""
  | [(name, value)] =>
    spacing.lineStart depth ++ quote name ++ ":" ++ spacing.afterColon ++
      value.textWith spacing depth
  | (name, value) :: rest =>
    spacing.lineStart depth ++ quote name ++ ":" ++ spacing.afterColon ++
      value.textWith spacing depth ++ "," ++ membersWith spacing depth rest

end

/-- The text of a value, without blanks. -/
def compact (value : Json) : String :=
  value.textWith .tight 0

/-- The text of a value, on several lines. -/
def pretty (value : Json) : String :=
  value.textWith .lines 0

end Json
end CharacterSheet
