import CharacterSheet.Proofs.Descent
import CharacterSheet.Proofs.Query.Reading

/-!
# Parsing a query comes to an end

The calls that a call of the parser makes are written down as its plan, and the
parser follows these plans.  Some calls start at the token at which their caller
starts, so each function has a rank: where no token has been passed, a call ranks
below its caller.  Four ranks are enough, so a call is as heavy as four times the
tokens left for it and its rank, and every call that it makes is lighter.
-/

namespace CharacterSheet
namespace Query

open CharacterSheet.Descent (weight weight_lt_of_rank_lt weight_lt_of_length_lt)

/-- The position at which the parser has met an error. -/
def SyntaxError.position? : SyntaxError → Option Nat
  | unexpectedEnd position | unexpectedToken _ position | expectedToken _ position
  | expectedIndex position | expectedName position | afterProjection position
  | unknownFunction _ position | argumentCount _ _ _ position | trailingInput position =>
    some position
  | _ => none

namespace Parser

/-- A call of one of the functions of the parser, less the tokens. -/
inductive Call where
  | expression (power : Nat)
  | extended (power : Nat) (left : Expression)
  | operand
  | extension (left : Expression) (token : Token)
  | bracketed (left : Expression)
  | filtered (left : Expression)
  | named (power : Nat)
  | projected (power : Nat)
  | callOf (name : String)
  | commaSeparated

namespace Call

/-- What a call reads. -/
@[reducible]
def Result : Call → Type
  | commaSeparated => List Expression
  | _ => Expression

/-- Carry out a call under a bound. -/
def run (total depth : Nat) :
    (call : Call) → List Token → Except SyntaxError (call.Result × List Token)
  | expression power => Parser.expression total depth power
  | extended power left => Parser.extended total depth power left
  | operand => Parser.operand total depth
  | extension left token => Parser.extension total depth left token
  | bracketed left => Parser.bracketed total depth left
  | filtered left => Parser.filtered total depth left
  | named power => Parser.named total depth power
  | projected power => Parser.projected total depth power
  | callOf name => Parser.callOf total depth name
  | commaSeparated => Parser.commaSeparated total depth

/-- What a call does: which calls it makes, and what it makes of what they read. -/
def plan (total : Nat) :
    (call : Call) → List Token → Plan Result SyntaxError Token call.Result
  | expression power, tokens =>
    .calls operand tokens fun left rest => .reading (extended power left) rest id
  | extended _ left, [] => .ends (.ok (left, []))
  | extended power left, token :: rest =>
    if power < bindingPower token then
      .calls (extension left token) rest fun longer rest =>
        .reading (extended power longer) rest id
    else .ends (.ok (left, token :: rest))
  | operand, [] => .ends (.error (.unexpectedEnd (position total [])))
  | operand, token :: rest =>
    match token with
    | .current => .ends (.ok (.current, rest))
    | .name name =>
      match rest with
      | .openingGroup :: rest => .reading (callOf name) rest id
      | _ => .ends (.ok (.field name, rest))
    | .quotedName name => .ends (.ok (.field name, rest))
    | .text value => .ends (.ok (.literal (.str value), rest))
    | .literal value => .ends (.ok (.literal value, rest))
    | .number value => .ends (.ok (.literal (.ofComputed value), rest))
    | .star => .reading (projected (bindingPower .star)) rest (.projectMembers .current)
    | .flatten => .reading (projected (bindingPower .flatten)) rest (.project (.flatten .current))
    | .opening => .reading (bracketed .current) rest id
    | .filter => .reading (filtered .current) rest id
    | .not => .reading (expression (bindingPower .not)) rest .not
    | .openingGroup =>
      .calls (expression 0) rest fun inner rest =>
        .after (expectClosingGroup total rest) fun rest => .ends (.ok (inner, rest))
    | other => .ends (.error (.unexpectedToken other.describe (position total rest)))
  | extension left token, rest =>
    match token with
    | .dot =>
      match rest with
      | .star :: rest => .reading (projected (bindingPower .star)) rest (.projectMembers left)
      | _ => .reading (named (bindingPower .dot)) rest (.chain left)
    | .pipe => .reading (expression (bindingPower .pipe)) rest (.pipe left)
    | .or => .reading (expression (bindingPower .or)) rest (.or left)
    | .and => .reading (expression (bindingPower .and)) rest (.and left)
    | .compare relation =>
      .reading (expression (bindingPower (.compare relation))) rest (.compare relation left)
    | .flatten => .reading (projected (bindingPower .flatten)) rest (.project (.flatten left))
    | .filter => .reading (filtered left) rest id
    | .opening => .reading (bracketed left) rest id
    | other => .ends (.error (.unexpectedToken other.describe (position total rest)))
  | bracketed _, [] => .ends (.error (.expectedIndex (position total [])))
  | bracketed left, token :: rest =>
    match token with
    | .number value =>
      if Numeric.isWhole value then
        .after (expectClosing total rest) fun rest =>
          .ends (.ok (indexed left (itemPosition value), rest))
      else .ends (.error (.expectedIndex (position total rest)))
    | .star =>
      .after (expectClosing total rest) fun rest =>
        .reading (projected (bindingPower .star)) rest (.project left)
    | _ => .ends (.error (.expectedIndex (position total rest)))
  | filtered left, tokens =>
    .calls (expression 0) tokens fun condition rest =>
      .after (expectClosing total rest) fun rest =>
        .reading (projected (bindingPower .filter)) rest (.filter left condition)
  | named power, tokens =>
    match tokens with
    | .name _ :: _ | .quotedName _ :: _ => .reading (expression power) tokens id
    | _ => .ends (.error (.expectedName (position total tokens)))
  | projected _, [] => .ends (.ok (.current, []))
  | projected power, token :: rest =>
    if bindingPower token < projectionEnd then .ends (.ok (.current, token :: rest))
    else
      match token with
      | .opening | .filter => .reading (expression power) (token :: rest) id
      | .dot => .reading (named power) rest id
      | _ => .ends (.error (.afterProjection (position total (token :: rest))))
  | callOf name, tokens =>
    match Builtin.ofName? name with
    | none => .ends (.error (.unknownFunction name (position total tokens)))
    | some function =>
      match tokens with
      | .closingGroup :: _ =>
        .after (expectClosingGroup total tokens) fun rest =>
          .ends (checkedCall total function [] rest)
      | _ =>
        .calls commaSeparated tokens fun arguments rest =>
          .after (expectClosingGroup total rest) fun rest =>
            .ends (checkedCall total function arguments rest)
  | commaSeparated, tokens =>
    .calls (expression 0) tokens fun first rest =>
      match rest with
      | .comma :: rest => .reading commaSeparated rest (first :: ·)
      | _ => .ends (.ok ([first], rest))

/-! ## The parser follows the plans -/

/-- Under a bound the parser does what the plan of a call says, with what its
calls come to under a bound that is smaller by one. -/
def FollowsPlan (total depth : Nat) (call : Call) (tokens : List Token) : Prop :=
  call.run total (depth + 1) tokens =
    (call.plan total tokens).carriedOut fun callee => callee.run total depth

section FollowsPlan

variable {total depth power : Nat} {left : Expression} {tokens : List Token}

theorem followsPlan_expression : FollowsPlan total depth (expression power) tokens := by
  simp only [FollowsPlan, run, Parser.expression, plan, Plan.reading, Plan.carriedOut, id,
    bind_pair]

theorem followsPlan_extended : FollowsPlan total depth (extended power left) tokens := by
  cases tokens with
  | nil => simp only [FollowsPlan, run, Parser.extended, plan, Plan.carriedOut]
  | cons token rest =>
    simp only [FollowsPlan, run, Parser.extended, plan]
    split
    · simp only [Plan.reading, Plan.carriedOut, id, bind_pair]
    · rfl

theorem followsPlan_operand : FollowsPlan total depth operand tokens := by
  cases tokens with
  | nil => simp only [FollowsPlan, run, Parser.operand, plan, Plan.carriedOut]
  | cons token rest =>
    cases token
    case name name =>
      simp only [FollowsPlan, run, Framed.operand_name, plan]
      split
      · simp only [Plan.reading, Plan.carriedOut, id, bind_pair]
      · simp only [Plan.carriedOut]
    all_goals
      simp only [FollowsPlan, run, Parser.operand, plan, Plan.carriedOut, Plan.carriedOut_after,
        Plan.reading, id, bind_pair]
    all_goals rfl

theorem followsPlan_extension {token : Token} :
    FollowsPlan total depth (extension left token) tokens := by
  cases token
  case dot =>
    simp only [FollowsPlan, run, Framed.extension_dot, plan]
    split
    all_goals
      simp only [Plan.reading, Plan.carriedOut]
      rfl
  all_goals
    simp only [FollowsPlan, run, Parser.extension, plan, Plan.carriedOut, Plan.reading, id,
      bind_pair]
  all_goals rfl

theorem followsPlan_bracketed : FollowsPlan total depth (bracketed left) tokens := by
  cases tokens with
  | nil => simp only [FollowsPlan, run, Parser.bracketed, plan, Plan.carriedOut]
  | cons token rest =>
    cases token
    case number value =>
      simp only [FollowsPlan, run, Parser.bracketed, plan]
      split
      · simp only [Plan.carriedOut_after, Plan.carriedOut]
        rfl
      · rfl
    all_goals
      simp only [FollowsPlan, run, Parser.bracketed, plan, Plan.carriedOut, Plan.carriedOut_after,
        Plan.reading]
    all_goals rfl

theorem followsPlan_filtered : FollowsPlan total depth (filtered left) tokens := by
  simp only [FollowsPlan, run, Parser.filtered, plan, Plan.reading, Plan.carriedOut,
    Plan.carriedOut_after]
  rfl

theorem followsPlan_named : FollowsPlan total depth (named power) tokens := by
  cases tokens with
  | nil => simp only [FollowsPlan, run, Parser.named, plan, Plan.carriedOut]
  | cons token rest =>
    cases token
    case name | quotedName =>
      simp only [FollowsPlan, run, Parser.named, plan, Plan.reading, Plan.carriedOut, id, bind_pair]
    all_goals simp only [FollowsPlan, run, Parser.named, plan, Plan.carriedOut]

theorem followsPlan_projected : FollowsPlan total depth (projected power) tokens := by
  cases tokens with
  | nil => simp only [FollowsPlan, run, Parser.projected, plan, Plan.carriedOut]
  | cons token rest =>
    simp only [FollowsPlan, run, Framed.projected_cons, plan]
    split
    · rfl
    · split
      all_goals simp only [Plan.reading, Plan.carriedOut, id, bind_pair]

theorem followsPlan_callOf {name : String} : FollowsPlan total depth (callOf name) tokens := by
  cases known : Builtin.ofName? name with
  | none => simp only [FollowsPlan, run, Parser.callOf, plan, known, Plan.carriedOut]
  | some function =>
    simp only [FollowsPlan, run, Framed.callOf_some known, plan, known]
    split
    all_goals simp only [Plan.carriedOut_after, Plan.carriedOut]

theorem followsPlan_commaSeparated : FollowsPlan total depth commaSeparated tokens := by
  simp only [FollowsPlan, run, Parser.commaSeparated, plan, Plan.carriedOut]
  refine congrArg _ (funext fun read => ?_)
  rcases read with ⟨first, rest⟩
  cases rest with
  | nil => rfl
  | cons token behind => cases token <;> rfl

end FollowsPlan

/-! ## The plans go forward -/

/-- Where no token has been passed, a call ranks below its caller. -/
@[simp]
def rank : Call → Fin 4
  | operand | extended _ _ | bracketed _ => 0
  | expression _ => 1
  | filtered _ | named _ | projected _ | commaSeparated => 2
  | extension _ _ | callOf _ => 3

end Call

/-- An error is met at some place among the tokens or behind it, and not because
of the bound. -/
def AtFault (total : Nat) (here : List Token) (problem : SyntaxError) : Prop :=
  ∃ rest, rest <:+ here ∧ problem.position? = some (position total rest)

namespace Call

section GoesForward

variable {total power : Nat} {left : Expression} {here tokens rest : List Token}

/-- The plan of a call goes forward. -/
def GoesForward (total : Nat) (call : Call) (tokens : List Token) : Prop :=
  (call.plan total tokens).Forward (weight rank) (AtFault total) (weight rank call tokens) tokens

/-- A token that is expected is passed, or an error is met behind what stands
there instead. -/
theorem forward_expect {α : Type} {limit : Nat} {expected : Token}
    {pass : List Token → Except SyntaxError (List Token)}
    {next : List Token → Plan Result SyntaxError Token α}
    (passes : ∀ {front behind}, pass front = .ok behind ↔ front = expected :: behind)
    (refuses : ∀ {front problem}, pass front = .error problem →
      problem.position? = some (position total (front.drop 1)))
    (remains : rest <:+ here)
    (goesOn : ∀ behind, rest = expected :: behind →
      (next behind).Forward (weight rank) (AtFault total) limit here) :
    (Plan.after (pass rest) next).Forward (weight rank) (AtFault total) limit here := by
  refine .after (fun behind passed => goesOn behind (passes.mp passed)) fun problem refused => ?_
  exact ⟨rest.drop 1, (List.drop_suffix 1 rest).trans remains, refuses refused⟩

theorem position?_expectClosing {problem : SyntaxError}
    (refused : expectClosing total rest = .error problem) :
    problem.position? = some (position total (rest.drop 1)) := by
  unfold expectClosing at refused
  split at refused <;> cases refused
  rfl

theorem position?_expectClosingGroup {problem : SyntaxError}
    (refused : expectClosingGroup total rest = .error problem) :
    problem.position? = some (position total (rest.drop 1)) := by
  unfold expectClosingGroup at refused
  split at refused <;> cases refused
  rfl

/-- The number of arguments is checked where the call ends. -/
theorem forward_checkedCall {limit : Nat} (function : Builtin) (arguments : List Expression)
    (remains : rest <:+ here) :
    (Plan.ends (checkedCall total function arguments rest) :
      Plan Result SyntaxError Token Expression).Forward (weight rank) (AtFault total) limit here := by
  unfold checkedCall
  split
  · exact .read remains
  · split
    · exact .read remains
    · exact .refuse ⟨rest, remains, rfl⟩

theorem goesForward_expression : GoesForward total (expression power) tokens := by
  refine .calls (List.suffix_refl _) (weight_lt_of_rank_lt (by simp) (List.suffix_refl _)) ?_
  intro left rest remains
  exact .reading (List.suffix_refl _) (weight_lt_of_rank_lt (by simp) remains)

theorem goesForward_extended : GoesForward total (extended power left) tokens := by
  cases tokens with
  | nil => exact .read (List.suffix_refl _)
  | cons token rest =>
    simp only [GoesForward, plan]
    split
    · refine .calls (List.suffix_cons _ _) (weight_lt_of_length_lt (Nat.lt_succ_self _)) ?_
      intro longer behind remains
      refine .reading (List.suffix_refl _) (weight_lt_of_length_lt ?_)
      exact Nat.lt_succ_of_le remains.length_le
    · exact .read (List.suffix_refl _)

theorem goesForward_operand : GoesForward total operand tokens := by
  cases tokens with
  | nil => exact .refuse ⟨[], List.suffix_refl _, rfl⟩
  | cons token rest =>
    have behind : rest <:+ token :: rest := List.suffix_cons token rest
    have fewer : rest.length < (token :: rest).length := Nat.lt_succ_self _
    cases token with
    | name name =>
      cases rest with
      | nil => exact .read behind
      | cons next rest =>
        have fewerToo : rest.length < (Token.name name :: next :: rest).length :=
          Nat.lt_of_succ_lt fewer
        cases next
        case openingGroup =>
          exact .reading ((List.suffix_cons _ rest).trans behind) (weight_lt_of_length_lt fewerToo)
        all_goals exact .read behind
    | current | quotedName | text | literal | number => exact .read behind
    | star | flatten | opening | filter | not =>
      exact .reading behind (weight_lt_of_length_lt fewer)
    | openingGroup =>
      refine .calls behind (weight_lt_of_length_lt fewer) fun inner front remains => ?_
      refine forward_expect expectClosingGroup_eq_ok position?_expectClosingGroup
        (List.suffix_refl _) ?_
      rintro rest rfl
      exact .read (List.suffix_cons _ rest)
    | _ => exact .refuse ⟨rest, behind, rfl⟩

theorem goesForward_extension {token : Token} :
    GoesForward total (extension left token) tokens := by
  have here : tokens <:+ tokens := List.suffix_refl tokens
  cases token with
  | dot =>
    cases tokens with
    | nil => exact .reading here (weight_lt_of_rank_lt (by simp) here)
    | cons token rest =>
      cases token
      case star =>
        exact .reading (List.suffix_cons _ rest) (weight_lt_of_length_lt (Nat.lt_succ_self _))
      all_goals exact .reading here (weight_lt_of_rank_lt (by simp) here)
  | pipe | or | and | compare | flatten | filter | opening =>
    exact .reading here (weight_lt_of_rank_lt (by simp) here)
  | _ => exact .refuse ⟨tokens, here, rfl⟩

theorem goesForward_bracketed : GoesForward total (bracketed left) tokens := by
  cases tokens with
  | nil => exact .refuse ⟨[], List.suffix_refl _, rfl⟩
  | cons token rest =>
    have behind : rest <:+ token :: rest := List.suffix_cons token rest
    cases token with
    | number value =>
      simp only [GoesForward, plan]
      split
      · refine forward_expect expectClosing_eq_ok position?_expectClosing behind ?_
        rintro front rfl
        exact .read ((List.suffix_cons _ front).trans behind)
      · exact .refuse ⟨rest, behind, rfl⟩
    | star =>
      refine forward_expect expectClosing_eq_ok position?_expectClosing behind ?_
      rintro front rfl
      refine .reading ((List.suffix_cons _ front).trans behind) (weight_lt_of_length_lt ?_)
      exact Nat.lt_succ_of_lt (Nat.lt_succ_self _)
    | _ => exact .refuse ⟨rest, behind, rfl⟩

theorem goesForward_filtered : GoesForward total (filtered left) tokens := by
  refine .calls (List.suffix_refl _) (weight_lt_of_rank_lt (by simp) (List.suffix_refl _)) ?_
  intro condition rest remains
  refine forward_expect expectClosing_eq_ok position?_expectClosing (List.suffix_refl _) ?_
  rintro front rfl
  refine .reading (List.suffix_cons _ front) (weight_lt_of_length_lt ?_)
  exact Nat.lt_of_lt_of_le (Nat.lt_succ_self _) remains.length_le

theorem goesForward_named : GoesForward total (named power) tokens := by
  have here : tokens <:+ tokens := List.suffix_refl tokens
  cases tokens with
  | nil => exact .refuse ⟨[], here, rfl⟩
  | cons token rest =>
    cases token with
    | name | quotedName => exact .reading here (weight_lt_of_rank_lt (by simp) here)
    | _ => exact .refuse ⟨_, here, rfl⟩

theorem goesForward_projected : GoesForward total (projected power) tokens := by
  have here : tokens <:+ tokens := List.suffix_refl tokens
  cases tokens with
  | nil => exact .read here
  | cons token rest =>
    simp only [GoesForward, plan]
    split
    · exact .read here
    · cases token with
      | opening | filter => exact .reading here (weight_lt_of_rank_lt (by simp) here)
      | dot =>
        exact .reading (List.suffix_cons _ rest) (weight_lt_of_length_lt (Nat.lt_succ_self _))
      | _ => exact .refuse ⟨_, here, rfl⟩

theorem goesForward_callOf {name : String} : GoesForward total (callOf name) tokens := by
  have here : tokens <:+ tokens := List.suffix_refl tokens
  simp only [GoesForward, plan]
  split
  · exact .refuse ⟨_, here, rfl⟩
  · rename_i function known
    split
    · refine forward_expect expectClosingGroup_eq_ok position?_expectClosingGroup here ?_
      intro behind same
      exact forward_checkedCall function [] (same ▸ List.suffix_cons _ behind)
    · refine .calls here (weight_lt_of_rank_lt (by simp) here) fun arguments rest remains => ?_
      refine forward_expect expectClosingGroup_eq_ok position?_expectClosingGroup
        (List.suffix_refl _) ?_
      rintro behind rfl
      exact forward_checkedCall function arguments (List.suffix_cons _ behind)

theorem goesForward_commaSeparated : GoesForward total commaSeparated tokens := by
  refine .calls (List.suffix_refl _) (weight_lt_of_rank_lt (by simp) (List.suffix_refl _)) ?_
  intro first rest remains
  cases rest with
  | nil => exact .read (List.suffix_refl _)
  | cons token behind =>
    cases token
    case comma =>
      refine .reading (List.suffix_cons _ behind) (weight_lt_of_length_lt ?_)
      exact Nat.lt_of_lt_of_le (Nat.lt_succ_self _) remains.length_le
    all_goals exact .read (List.suffix_refl _)

end GoesForward
end Call

/-- The parser as a recursive descent. -/
def descent (total : Nat) : Descent Call.Result SyntaxError Token where
  plan := Call.plan total
  run depth call := call.run total depth
  run_zero call tokens read := by
    cases call <;>
      simp [Call.run, expression, extended, operand, extension, bracketed, filtered, named,
        projected, callOf, commaSeparated]
  run_succ depth call tokens := by
    cases call with
    | expression => exact Call.followsPlan_expression
    | extended => exact Call.followsPlan_extended
    | operand => exact Call.followsPlan_operand
    | extension => exact Call.followsPlan_extension
    | bracketed => exact Call.followsPlan_bracketed
    | filtered => exact Call.followsPlan_filtered
    | named => exact Call.followsPlan_named
    | projected => exact Call.followsPlan_projected
    | callOf => exact Call.followsPlan_callOf
    | commaSeparated => exact Call.followsPlan_commaSeparated

/-- No call of the parser goes back. -/
theorem descent_forward (total : Nat) :
    (descent total).Forward (weight Call.rank) (AtFault total) where
  plan call tokens := by
    cases call with
    | expression => exact Call.goesForward_expression
    | extended => exact Call.goesForward_extended
    | operand => exact Call.goesForward_operand
    | extension => exact Call.goesForward_extension
    | bracketed => exact Call.goesForward_bracketed
    | filtered => exact Call.goesForward_filtered
    | named => exact Call.goesForward_named
    | projected => exact Call.goesForward_projected
    | callOf => exact Call.goesForward_callOf
    | commaSeparated => exact Call.goesForward_commaSeparated
  carries := by
    rintro rest here problem remains ⟨place, suffix, met⟩
    exact ⟨place, suffix.trans remains, met⟩

end Parser
end Query
end CharacterSheet
