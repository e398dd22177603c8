import CharacterSheet.Formula.Parser

/-!
# The grammar of expressions

`Derives` says which tokens spell which expression, without reference to the
parser: one rule for each way in which the grammar forms a phrase.  A level
that joins operands is left recursive, so the operands group to the left.  The
right operand of a power is a signed term, so powers group to the right and
bind more tightly than a sign before them.  A plus sign and parentheses leave
no trace in the expression.

The operators, their levels and the functions with their numbers of arguments
are stated here a second time.  `joins_iff`, `ofName?_eq_some_iff` and
`accepts_iff` show that the parser goes by the same tables.
-/

namespace CharacterSheet
namespace Formula
namespace Grammar

open CharacterSheet.Formula.Parser (Level)

/-- The phrases of the grammar. -/
inductive Phrase where
  | joined (level : Level)
  | signed
  | power
  | atom

namespace Phrase

/-- The phrase that a whole expression is. -/
abbrev comparison : Phrase := .joined .comparison

/-- The phrases that the operators of a level join. -/
def operands : Level → Phrase
  | .comparison => .joined .sum
  | .sum => .joined .product
  | .product => .signed

end Phrase

/-- The tokens that join operands at a level, with their operations. -/
inductive Joins : Level → Token → Operation → Prop where
  | relation (relation : Comparison) :
      Joins .comparison (.compare relation) (.compare relation)
  | plus : Joins .sum .plus .add
  | minus : Joins .sum .minus .subtract
  | times : Joins .product .times .multiply
  | divide : Joins .product .divide .divide
  | modulo : Joins .product .modulo .modulo

/-- The numbers of arguments with which a function can be called: any positive
number for the extremes, and exactly one for all others. -/
def Arity (function : Builtin) (count : Nat) : Prop :=
  if function = .minimum ∨ function = .maximum then 1 ≤ count else count = 1

/-- Parts with a comma between each two of them. -/
def separated : List (List Token) → List Token
  | [] => []
  | [part] => part
  | part :: next :: parts => part ++ .comma :: separated (next :: parts)

/-- The tokens that spell an expression as a phrase of a certain kind. -/
inductive Derives : Phrase → List Token → Expression → Prop where
  | operand {level : Level} {tokens : List Token} {expression : Expression}
      (only : Derives (.operands level) tokens expression) :
      Derives (.joined level) tokens expression
  | join {level : Level} {token : Token} {operation : Operation}
      {before after : List Token} {left right : Expression}
      (joins : Joins level token operation)
      (earlier : Derives (.joined level) before left)
      (last : Derives (.operands level) after right) :
      Derives (.joined level) (before ++ token :: after) (.binary operation left right)
  | negated {tokens : List Token} {operand : Expression}
      (inner : Derives .signed tokens operand) :
      Derives .signed (.minus :: tokens) (.negate operand)
  | affirmed {tokens : List Token} {operand : Expression}
      (inner : Derives .signed tokens operand) : Derives .signed (.plus :: tokens) operand
  | unsigned {tokens : List Token} {expression : Expression}
      (inner : Derives .power tokens expression) : Derives .signed tokens expression
  | raised {before after : List Token} {base exponent : Expression}
      (lower : Derives .atom before base) (upper : Derives .signed after exponent) :
      Derives .power (before ++ .power :: after) (.binary .power base exponent)
  | plain {tokens : List Token} {expression : Expression}
      (inner : Derives .atom tokens expression) : Derives .power tokens expression
  | number (value : Float) : Derives .atom [.number value] (.number value)
  | reference (key : String) : Derives .atom [.reference key] (.reference key)
  | group {tokens : List Token} {expression : Expression}
      (inner : Derives .comparison tokens expression) :
      Derives .atom (.opening :: tokens ++ [.closing]) expression
  | call {function : Builtin} {arguments : List (List Token × Expression)}
      (arity : Arity function arguments.length)
      (each : ∀ argument ∈ arguments, Derives .comparison argument.1 argument.2) :
      Derives .atom
        (.name function.name :: .opening :: separated (arguments.map Prod.fst) ++ [.closing])
        (.call function (arguments.map Prod.snd))

/-- The parser joins operands by the operators of the grammar. -/
theorem joins_iff {level : Level} {token : Token} {operation : Operation} :
    Joins level token operation ↔ level.operation? token = some operation := by
  constructor
  · intro joins
    cases joins <;> rfl
  · intro found
    cases level <;> cases token <;> cases found <;> constructor

/-- A function is found by its own name and by no other. -/
theorem ofName?_eq_some_iff {text : String} {function : Builtin} :
    Builtin.ofName? text = some function ↔ text = function.name := by
  constructor
  · intro found
    have named := List.find?_some found
    exact (of_decide_eq_true named).symm
  · intro named
    subst named
    cases function <;> rfl

/-- The parser accepts the numbers of arguments of the grammar. -/
theorem accepts_iff {function : Builtin} {count : Nat} :
    function.accepts count = true ↔ Arity function count := by
  cases function <;> simp [Builtin.accepts, Builtin.takesMany, Arity, Nat.succ_le_iff]

end Grammar
end Formula
end CharacterSheet
