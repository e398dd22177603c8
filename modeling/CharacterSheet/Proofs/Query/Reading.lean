import CharacterSheet.Proofs.Except
import CharacterSheet.Query.Parser
import Mathlib.Data.List.Infix

/-!
# What follows a query does not matter

Whatever the parser reads from the front of some tokens it also reads when more
tokens follow, provided that the first of these does not continue what is read.
A larger bound on the nesting of calls does not matter either, and neither does
the number of tokens, which only error messages mention.

`Carries` says this of one outcome, together with the fact that what remains to
be read is an end of the tokens.  `Framed` says it of all functions of the
parser at one bound.  Each function calls others with a smaller bound only, so
`framed` is an induction on the bound with one lemma for each function.
-/

namespace CharacterSheet
namespace Query
namespace Parser

/-- Before these tokens reading at a given power ends, also behind a
projection. -/
structure Stops (power : Nat) (tail : List Token) : Prop where
  weak : ∀ token ∈ tail.head?, bindingPower token ≤ power
  loose : ∀ token ∈ tail.head?, bindingPower token < projectionEnd

namespace Stops

variable {power : Nat} {tail : List Token}

/-- At the end of all tokens everything ends. -/
theorem nil : Stops power [] where
  weak token first := by cases first
  loose token first := by cases first

theorem mono {other : Nat} (stops : Stops power tail) (ordered : power ≤ other) :
    Stops other tail where
  weak token first := Nat.le_trans (stops.weak token first) ordered
  loose := stops.loose

/-- What ends a projection ends whatever binds as strongly as one. -/
theorem tight {other : Nat} (stops : Stops power tail) (tight : projectionEnd ≤ other + 1) :
    Stops other tail where
  weak token first := Nat.le_of_lt_succ (Nat.lt_of_lt_of_le (stops.loose token first) tight)
  loose := stops.loose

end Stops

/-- What is read from the front of some tokens is also read when tokens follow
that satisfy a condition.  The condition matters only if all tokens are read,
because one token ahead is looked at and no more. -/
def Carries {α : Type} (stops : List Token → Prop) (tokens : List Token)
    (outcome : Except SyntaxError (WithRest α))
    (longer : List Token → Except SyntaxError (WithRest α)) : Prop :=
  ∀ value rest, outcome = .ok (value, rest) →
    rest <:+ tokens ∧
      ∀ tail, (rest = [] → stops tail) → longer tail = .ok (value, rest ++ tail)

namespace Carries

variable {α β : Type} {stops inner : List Token → Prop} {tokens : List Token}

theorem error {problem : SyntaxError} {longer : List Token → Except SyntaxError (WithRest α)} :
    Carries stops tokens (.error problem) longer := by
  intro value rest impossible
  cases impossible

theorem ok {value : α} {rest : List Token} (remains : rest <:+ tokens) :
    Carries stops tokens (.ok (value, rest)) fun tail => .ok (value, rest ++ tail) := by
  rintro _ _ ⟨⟩
  exact ⟨remains, fun _ _ => rfl⟩

/-- Passing tokens beforehand changes nothing. -/
theorem behind {outcome : Except SyntaxError (WithRest α)}
    {longer : List Token → Except SyntaxError (WithRest α)} {rest : List Token}
    (carries : Carries stops rest outcome longer) (remains : rest <:+ tokens) :
    Carries stops tokens outcome longer := by
  intro value behind succeeds
  rcases carries value behind succeeds with ⟨suffix, reads⟩
  exact ⟨suffix.trans remains, reads⟩

theorem weaken {outcome : Except SyntaxError (WithRest α)}
    {longer : List Token → Except SyntaxError (WithRest α)}
    (carries : Carries inner tokens outcome longer) (implies : ∀ tail, stops tail → inner tail) :
    Carries stops tokens outcome longer := by
  intro value rest succeeds
  rcases carries value rest succeeds with ⟨suffix, reads⟩
  exact ⟨suffix, fun tail ends => reads tail fun empty => implies tail (ends empty)⟩

/-- Reading one thing after the other.  If the first reading passes all tokens,
then the second has to succeed without any, and what satisfies its condition
has to satisfy that of the first. -/
theorem bind {first : Except SyntaxError (WithRest α)}
    {longer : List Token → Except SyntaxError (WithRest α)}
    {next after : WithRest α → Except SyntaxError (WithRest β)}
    (carries : Carries inner tokens first longer)
    (continues : ∀ value rest, Carries stops rest (next (value, rest))
      fun tail => after (value, rest ++ tail))
    (implies : ∀ value read, next (value, []) = .ok read → ∀ tail, stops tail → inner tail) :
    Carries stops tokens (first >>= next) fun tail => longer tail >>= after := by
  intro value rest succeeds
  rcases bind_eq_ok.mp succeeds with ⟨⟨middle, remaining⟩, reads, follows⟩
  rcases carries middle remaining reads with ⟨suffix, longerReads⟩
  rcases continues middle remaining value rest follows with ⟨restSuffix, longerFollows⟩
  refine ⟨restSuffix.trans suffix, fun tail ends => ?_⟩
  have innerEnds : remaining = [] → inner tail := by
    rintro rfl
    exact implies middle _ follows tail (ends (List.suffix_nil.mp restSuffix))
  exact bind_eq_ok.mpr ⟨_, longerReads tail innerEnds, longerFollows tail ends⟩

/-- Passing a token that is expected. -/
theorem expect {expected : Token} {pass longerPass : List Token → Except SyntaxError (List Token)}
    {next : List Token → Except SyntaxError (WithRest α)}
    {after : List Token → List Token → Except SyntaxError (WithRest α)}
    (passes : ∀ {front rest}, pass front = .ok rest ↔ front = expected :: rest)
    (longerPasses : ∀ {front rest}, longerPass front = .ok rest ↔ front = expected :: rest)
    (continues : ∀ rest, Carries stops rest (next rest) fun tail => after tail (rest ++ tail)) :
    Carries stops tokens (pass tokens >>= next)
      fun tail => longerPass (tokens ++ tail) >>= after tail := by
  intro value rest succeeds
  rcases bind_eq_ok.mp succeeds with ⟨remaining, passed, follows⟩
  have split := passes.mp passed
  rcases continues remaining value rest follows with ⟨suffix, longerFollows⟩
  refine ⟨suffix.trans (split ▸ List.suffix_cons expected remaining), fun tail ends => ?_⟩
  have longerPassed := longerPasses.mpr (congrArg (· ++ tail) split)
  exact bind_eq_ok.mpr ⟨_, longerPassed, longerFollows tail ends⟩

/-- Making something of what is read. -/
theorem wrap {first : Except SyntaxError (WithRest α)}
    {longer : List Token → Except SyntaxError (WithRest α)}
    (carries : Carries inner tokens first longer) (make : α → β)
    (implies : ∀ tail, stops tail → inner tail) :
    Carries stops tokens (first >>= fun read => pure (make read.1, read.2))
      fun tail => longer tail >>= fun read => pure (make read.1, read.2) := by
  refine (carries.weaken implies).bind (fun value rest => ?_) fun _ _ _ _ stops => stops
  exact Carries.ok (List.suffix_refl rest)

/-- Reading something up to a token that is expected behind it, and going on
from there. -/
theorem enclosed {first : Except SyntaxError (WithRest α)}
    {longer : List Token → Except SyntaxError (WithRest α)} {expected : Token}
    {pass longerPass : List Token → Except SyntaxError (List Token)}
    {next after : WithRest α → List Token → Except SyntaxError (WithRest β)}
    (carries : Carries inner tokens first longer)
    (passes : ∀ {front rest}, pass front = .ok rest ↔ front = expected :: rest)
    (longerPasses : ∀ {front rest}, longerPass front = .ok rest ↔ front = expected :: rest)
    (continues : ∀ value front rest, Carries stops rest (next (value, front) rest)
      fun tail => after (value, front ++ tail) (rest ++ tail)) :
    Carries stops tokens (first >>= fun read => pass read.2 >>= next read)
      fun tail => longer tail >>= fun read => longerPass read.2 >>= after read := by
  refine carries.bind (fun value front => ?_) ?_
  · exact expect passes longerPasses (continues value front)
  · intro value read closes
    rcases bind_eq_ok.mp closes with ⟨_, passed, -⟩
    cases passes.mp passed

end Carries

theorem expectClosing_eq_ok {total : Nat} {tokens rest : List Token} :
    expectClosing total tokens = .ok rest ↔ tokens = .closing :: rest := by
  unfold expectClosing
  split <;> simp_all

theorem expectClosingGroup_eq_ok {total : Nat} {tokens rest : List Token} :
    expectClosingGroup total tokens = .ok rest ↔ tokens = .closingGroup :: rest := by
  unfold expectClosingGroup
  split <;> simp_all

/-- At one bound on the nesting of calls the parser reads the same as at a
larger one when more tokens follow. -/
structure Framed (total other depth deeper : Nat) : Prop where
  expression : ∀ power tokens, Carries (Stops power) tokens
    (Parser.expression total depth power tokens)
    fun tail => Parser.expression other deeper power (tokens ++ tail)
  extended : ∀ power left tokens, Carries (Stops power) tokens
    (Parser.extended total depth power left tokens)
    fun tail => Parser.extended other deeper power left (tokens ++ tail)
  operand : ∀ tokens, Carries (Stops projectionEnd) tokens
    (Parser.operand total depth tokens)
    fun tail => Parser.operand other deeper (tokens ++ tail)
  extension : ∀ left token tokens, Carries (Stops (bindingPower token)) tokens
    (Parser.extension total depth left token tokens)
    fun tail => Parser.extension other deeper left token (tokens ++ tail)
  bracketed : ∀ left tokens, Carries (Stops projectionEnd) tokens
    (Parser.bracketed total depth left tokens)
    fun tail => Parser.bracketed other deeper left (tokens ++ tail)
  filtered : ∀ left tokens, Carries (Stops projectionEnd) tokens
    (Parser.filtered total depth left tokens)
    fun tail => Parser.filtered other deeper left (tokens ++ tail)
  named : ∀ power tokens, Carries (Stops power) tokens
    (Parser.named total depth power tokens)
    fun tail => Parser.named other deeper power (tokens ++ tail)
  projected : ∀ power tokens, Carries (Stops power) tokens
    (Parser.projected total depth power tokens)
    fun tail => Parser.projected other deeper power (tokens ++ tail)
  callOf : ∀ name tokens, Carries (fun _ => True) tokens
    (Parser.callOf total depth name tokens)
    fun tail => Parser.callOf other deeper name (tokens ++ tail)
  commaSeparated : ∀ tokens, Carries (fun _ => False) tokens
    (Parser.commaSeparated total depth tokens)
    fun tail => Parser.commaSeparated other deeper (tokens ++ tail)

namespace Framed

variable {total other depth deeper : Nat}

theorem expression_step (framed : Framed total other depth deeper) (power : Nat)
    (tokens : List Token) : Carries (Stops power) tokens
      (Parser.expression total (depth + 1) power tokens)
      fun tail => Parser.expression other (deeper + 1) power (tokens ++ tail) := by
  simp only [Parser.expression]
  refine (framed.operand tokens).bind (fun left rest => framed.extended power left rest) ?_
  intro _ _ _ tail stops
  exact stops.tight (Nat.le_succ _)

/-- If no token is left to extend an operand, none of those that follow
does. -/
theorem extended_step (framed : Framed total other depth deeper) (power : Nat)
    (left : Expression) (tokens : List Token) : Carries (Stops power) tokens
      (Parser.extended total (depth + 1) power left tokens)
      fun tail => Parser.extended other (deeper + 1) power left (tokens ++ tail) := by
  cases tokens with
  | nil =>
    intro value rest succeeds
    rw [Parser.extended] at succeeds
    cases succeeds
    refine ⟨List.suffix_refl _, fun tail ends => ?_⟩
    have stops := ends rfl
    dsimp only [List.nil_append]
    cases tail with
    | nil => rw [Parser.extended]
    | cons token behind =>
      rw [Parser.extended, if_neg (Nat.not_lt.mpr (stops.weak token rfl))]
  | cons token rest =>
    simp only [List.cons_append, Parser.extended]
    by_cases binds : power < bindingPower token
    · simp only [if_pos binds]
      refine Carries.behind ?_ (List.suffix_cons token rest)
      refine (framed.extension left token rest).bind
        (fun left rest => framed.extended power left rest) ?_
      intro _ _ _ tail stops
      exact stops.mono (Nat.le_of_lt binds)
    · simp only [if_neg binds]
      exact Carries.ok (List.suffix_refl _)

theorem operand_name {name : String} {rest : List Token} :
    Parser.operand total (depth + 1) (.name name :: rest) =
      match rest with
      | .openingGroup :: rest => Parser.callOf total depth name rest
      | _ => .ok (.field name, rest) := by
  unfold Parser.operand
  rfl

/-- A name is a call if an opening parenthesis follows; no such token ends
anything. -/
theorem name_step (framed : Framed total other depth deeper) (name : String)
    (rest : List Token) : Carries (Stops projectionEnd) rest
      (Parser.operand total (depth + 1) (.name name :: rest))
      fun tail => Parser.operand other (deeper + 1) (.name name :: (rest ++ tail)) := by
  simp only [operand_name]
  cases rest with
  | nil =>
    rintro _ _ ⟨⟩
    refine ⟨List.suffix_refl _, fun tail ends => ?_⟩
    have stops := ends rfl
    cases tail with
    | nil => rfl
    | cons token behind =>
      have loose := stops.loose token rfl
      cases token <;> first | rfl | exact absurd loose (by decide)
  | cons token behind =>
    cases token
    case openingGroup =>
      exact ((framed.callOf name behind).weaken fun _ _ => trivial).behind
        (List.suffix_cons _ behind)
    all_goals exact Carries.ok (List.suffix_refl _)

theorem operand_step (framed : Framed total other depth deeper)
    (tokens : List Token) : Carries (Stops projectionEnd) tokens
      (Parser.operand total (depth + 1) tokens)
      fun tail => Parser.operand other (deeper + 1) (tokens ++ tail) := by
  cases tokens with
  | nil =>
    rw [Parser.operand]
    exact Carries.error
  | cons token rest =>
    refine Carries.behind ?_ (List.suffix_cons token rest)
    cases token with
    | name name => exact framed.name_step name rest
    | star =>
      simp only [List.cons_append, Parser.operand]
      exact (framed.projected _ rest).wrap _ fun _ stops => stops.tight (by decide)
    | flatten =>
      simp only [List.cons_append, Parser.operand]
      exact (framed.projected _ rest).wrap _ fun _ stops => stops.tight (by decide)
    | opening =>
      simp only [List.cons_append, Parser.operand]
      exact framed.bracketed .current rest
    | filter =>
      simp only [List.cons_append, Parser.operand]
      exact framed.filtered .current rest
    | not =>
      simp only [List.cons_append, Parser.operand]
      exact (framed.expression _ rest).wrap _ fun _ stops => stops.tight (by decide)
    | openingGroup =>
      simp only [List.cons_append, Parser.operand]
      exact (framed.expression 0 rest).enclosed expectClosingGroup_eq_ok expectClosingGroup_eq_ok
        fun _ _ rest => Carries.ok (List.suffix_refl rest)
    | current | quotedName | text | literal | number =>
      simp only [List.cons_append, Parser.operand]
      exact Carries.ok (List.suffix_refl _)
    | _ =>
      simp only [List.cons_append, Parser.operand]
      exact Carries.error

theorem extension_dot {left : Expression} {rest : List Token} :
    Parser.extension total (depth + 1) left .dot rest =
      match rest with
      | .star :: rest =>
        Parser.projected total depth (bindingPower .star) rest >>=
          fun read => pure (.projectMembers left read.1, read.2)
      | _ =>
        Parser.named total depth (bindingPower .dot) rest >>=
          fun read => pure (.chain left read.1, read.2) := by
  unfold Parser.extension
  rfl

/-- Behind a dot stands a star or a name. -/
theorem dot_step (framed : Framed total other depth deeper) (left : Expression)
    (tokens : List Token) : Carries (Stops (bindingPower .dot)) tokens
      (Parser.extension total (depth + 1) left .dot tokens)
      fun tail => Parser.extension other (deeper + 1) left .dot (tokens ++ tail) := by
  simp only [extension_dot]
  cases tokens with
  | nil =>
    rintro value rest succeeds
    rcases bind_eq_ok.mp succeeds with ⟨read, reads, -⟩
    cases depth with
    | zero => rw [Parser.named] at reads; cases reads
    | succ depth => simp [Parser.named] at reads
  | cons token behind =>
    have reading := (framed.named (bindingPower .dot) (token :: behind)).wrap (Expression.chain left)
      fun _ stops => stops
    cases token
    case star =>
      refine Carries.behind ?_ (List.suffix_cons _ behind)
      exact (framed.projected _ behind).wrap _ fun _ stops => stops.tight (by decide)
    all_goals exact reading

theorem extension_step (framed : Framed total other depth deeper) (left : Expression)
    (token : Token) (tokens : List Token) : Carries (Stops (bindingPower token)) tokens
      (Parser.extension total (depth + 1) left token tokens)
      fun tail => Parser.extension other (deeper + 1) left token (tokens ++ tail) := by
  cases token with
  | dot => exact framed.dot_step left tokens
  | pipe =>
    simp only [Parser.extension]
    exact (framed.expression _ tokens).wrap _ fun _ stops => stops
  | or =>
    simp only [Parser.extension]
    exact (framed.expression _ tokens).wrap _ fun _ stops => stops
  | and =>
    simp only [Parser.extension]
    exact (framed.expression _ tokens).wrap _ fun _ stops => stops
  | compare relation =>
    simp only [Parser.extension]
    exact (framed.expression _ tokens).wrap _ fun _ stops => stops
  | flatten =>
    simp only [Parser.extension]
    exact (framed.projected _ tokens).wrap _ fun _ stops => stops
  | filter =>
    simp only [Parser.extension]
    exact (framed.filtered left tokens).weaken fun _ stops => stops.tight (by decide)
  | opening =>
    simp only [Parser.extension]
    exact (framed.bracketed left tokens).weaken fun _ stops => stops.tight (by decide)
  | _ =>
    simp only [Parser.extension]
    exact Carries.error

theorem bracketed_step (framed : Framed total other depth deeper) (left : Expression)
    (tokens : List Token) : Carries (Stops projectionEnd) tokens
      (Parser.bracketed total (depth + 1) left tokens)
      fun tail => Parser.bracketed other (deeper + 1) left (tokens ++ tail) := by
  cases tokens with
  | nil =>
    rw [Parser.bracketed]
    exact Carries.error
  | cons token rest =>
    refine Carries.behind ?_ (List.suffix_cons token rest)
    cases token with
    | number value =>
      simp only [List.cons_append, Parser.bracketed]
      cases Numeric.isWhole value with
      | true =>
        exact Carries.expect expectClosing_eq_ok expectClosing_eq_ok
          fun rest => Carries.ok (List.suffix_refl rest)
      | false => exact Carries.error
    | star =>
      simp only [List.cons_append, Parser.bracketed]
      refine Carries.expect expectClosing_eq_ok expectClosing_eq_ok fun rest => ?_
      exact (framed.projected _ rest).wrap _ fun _ stops => stops.tight (by decide)
    | _ =>
      simp only [List.cons_append, Parser.bracketed]
      exact Carries.error

theorem filtered_step (framed : Framed total other depth deeper) (left : Expression)
    (tokens : List Token) : Carries (Stops projectionEnd) tokens
      (Parser.filtered total (depth + 1) left tokens)
      fun tail => Parser.filtered other (deeper + 1) left (tokens ++ tail) := by
  simp only [Parser.filtered]
  refine (framed.expression 0 tokens).enclosed expectClosing_eq_ok expectClosing_eq_ok
    fun _ _ rest => ?_
  exact (framed.projected _ rest).wrap _ fun _ stops => stops.tight (by decide)

theorem named_step (framed : Framed total other depth deeper) (power : Nat)
    (tokens : List Token) : Carries (Stops power) tokens
      (Parser.named total (depth + 1) power tokens)
      fun tail => Parser.named other (deeper + 1) power (tokens ++ tail) := by
  cases tokens with
  | nil =>
    simp only [Parser.named]
    exact Carries.error
  | cons token rest =>
    have reading := framed.expression power (token :: rest)
    cases token with
    | name | quotedName =>
      simp only [List.cons_append, Parser.named]
      exact reading
    | _ =>
      simp only [List.cons_append, Parser.named]
      exact Carries.error

theorem projected_cons {power : Nat} {token : Token} {rest : List Token} :
    Parser.projected total (depth + 1) power (token :: rest) =
      if bindingPower token < projectionEnd then .ok (.current, token :: rest)
      else
        match token with
        | .opening | .filter => Parser.expression total depth power (token :: rest)
        | .dot => Parser.named total depth power rest
        | _ => .error (.afterProjection (position total (token :: rest))) := by
  unfold Parser.projected
  rfl

theorem projected_step (framed : Framed total other depth deeper) (power : Nat)
    (tokens : List Token) : Carries (Stops power) tokens
      (Parser.projected total (depth + 1) power tokens)
      fun tail => Parser.projected other (deeper + 1) power (tokens ++ tail) := by
  cases tokens with
  | nil =>
    intro value rest succeeds
    rw [Parser.projected] at succeeds
    cases succeeds
    refine ⟨List.suffix_refl _, fun tail ends => ?_⟩
    have stops := ends rfl
    dsimp only [List.nil_append]
    cases tail with
    | nil => rw [Parser.projected]
    | cons token behind => rw [projected_cons, if_pos (stops.loose token rfl)]
  | cons token rest =>
    simp only [List.cons_append, projected_cons]
    by_cases ends : bindingPower token < projectionEnd
    · simp only [if_pos ends]
      exact Carries.ok (List.suffix_refl _)
    · simp only [if_neg ends]
      have reading := framed.expression power (token :: rest)
      cases token with
      | opening | filter => exact reading
      | dot => exact (framed.named power rest).behind (List.suffix_cons _ rest)
      | _ => exact Carries.error

/-- Without tokens no operand is read. -/
theorem operand_nil {read : WithRest Expression} :
    Parser.operand total depth [] ≠ .ok read := by
  cases depth <;> simp [Parser.operand]

theorem expression_nil {power : Nat} {read : WithRest Expression} :
    Parser.expression total depth power [] ≠ .ok read := by
  cases depth with
  | zero => simp [Parser.expression]
  | succ depth =>
    rw [Parser.expression]
    intro reads
    rcases bind_eq_ok.mp reads with ⟨_, readsOperand, -⟩
    exact operand_nil readsOperand

/-- Without tokens no arguments are read. -/
theorem commaSeparated_nil {read : WithRest (List Expression)} :
    Parser.commaSeparated total depth [] ≠ .ok read := by
  cases depth with
  | zero => simp [Parser.commaSeparated]
  | succ depth =>
    rw [Parser.commaSeparated]
    intro reads
    rcases bind_eq_ok.mp reads with ⟨_, readsFirst, -⟩
    exact expression_nil readsFirst

theorem checkedCall_step (function : Builtin) (arguments : List Expression) (rest : List Token) :
    Carries (fun _ => True) rest (checkedCall total function arguments rest)
      fun tail => checkedCall other function arguments (rest ++ tail) := by
  unfold checkedCall
  cases function.arity? with
  | none => exact Carries.ok (List.suffix_refl rest)
  | some expected =>
    by_cases enough : arguments.length = expected
    · simp only [if_pos enough]
      exact Carries.ok (List.suffix_refl rest)
    · simp only [if_neg enough]
      exact Carries.error

theorem callOf_some {name : String} {function : Builtin} {tokens : List Token}
    (known : Builtin.ofName? name = some function) :
    Parser.callOf total (depth + 1) name tokens =
      match tokens with
      | .closingGroup :: _ =>
        expectClosingGroup total tokens >>= checkedCall total function []
      | _ =>
        Parser.commaSeparated total depth tokens >>= fun read =>
          expectClosingGroup total read.2 >>= checkedCall total function read.1 := by
  unfold Parser.callOf
  rw [known]
  rfl

/-- The arguments end at a closing parenthesis, which is not looked behind. -/
theorem callOf_step (framed : Framed total other depth deeper) (name : String)
    (tokens : List Token) : Carries (fun _ => True) tokens
      (Parser.callOf total (depth + 1) name tokens)
      fun tail => Parser.callOf other (deeper + 1) name (tokens ++ tail) := by
  cases known : Builtin.ofName? name with
  | none =>
    simp only [Parser.callOf, known]
    exact Carries.error
  | some function =>
    simp only [callOf_some known]
    cases tokens with
    | nil =>
      intro value rest reads
      rcases bind_eq_ok.mp reads with ⟨_, readsArguments, -⟩
      exact absurd readsArguments commaSeparated_nil
    | cons token behind =>
      have someArguments : Carries (fun _ => True) (token :: behind)
          (Parser.commaSeparated total depth (token :: behind) >>= fun read =>
            expectClosingGroup total read.2 >>= checkedCall total function read.1)
          fun tail => Parser.commaSeparated other deeper (token :: behind ++ tail) >>=
            fun read => expectClosingGroup other read.2 >>= checkedCall other function read.1 :=
        (framed.commaSeparated (token :: behind)).enclosed expectClosingGroup_eq_ok
          expectClosingGroup_eq_ok fun arguments _ rest => checkedCall_step function arguments rest
      cases token
      case closingGroup =>
        exact Carries.expect expectClosingGroup_eq_ok expectClosingGroup_eq_ok
          (checkedCall_step function [])
      all_goals exact someArguments

/-- Behind an argument stands a token, so that what follows it is not looked
at. -/
theorem commaSeparated_step (framed : Framed total other depth deeper) (tokens : List Token) :
    Carries (fun _ => False) tokens
      (Parser.commaSeparated total (depth + 1) tokens)
      fun tail => Parser.commaSeparated other (deeper + 1) (tokens ++ tail) := by
  simp only [Parser.commaSeparated]
  refine (framed.expression 0 tokens).bind (fun first rest => ?_) fun _ _ _ _ => False.elim
  cases rest with
  | nil =>
    rintro value rest ⟨⟩
    exact ⟨List.suffix_refl _, fun tail ends => (ends rfl).elim⟩
  | cons token behind =>
    cases token
    case comma =>
      refine Carries.behind ?_ (List.suffix_cons _ behind)
      exact (framed.commaSeparated behind).wrap (first :: ·) fun _ => id
    all_goals exact Carries.ok (List.suffix_refl _)

end Framed

/-- What follows tokens that are read does not matter, and neither does a
larger bound. -/
theorem framed (total other : Nat) {depth deeper : Nat} (ordered : depth ≤ deeper) :
    Framed total other depth deeper := by
  induction depth generalizing deeper with
  | zero =>
    constructor <;> intros
    all_goals
      simp only [Parser.expression, Parser.extended, Parser.operand, Parser.extension,
        Parser.bracketed, Parser.filtered, Parser.named, Parser.projected, Parser.callOf,
        Parser.commaSeparated]
      exact Carries.error
  | succ depth inductionHypothesis =>
    cases deeper with
    | zero => cases ordered
    | succ deeper =>
      have inner := inductionHypothesis (Nat.le_of_succ_le_succ ordered)
      exact
        { expression := inner.expression_step
          extended := inner.extended_step
          operand := inner.operand_step
          extension := inner.extension_step
          bracketed := inner.bracketed_step
          filtered := inner.filtered_step
          named := inner.named_step
          projected := inner.projected_step
          callOf := inner.callOf_step
          commaSeparated := inner.commaSeparated_step }

end Parser
end Query
end CharacterSheet
