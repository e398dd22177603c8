import CharacterSheet.Proofs.Descent
import CharacterSheet.Proofs.Formula.Soundness

/-!
# Parsing an expression comes to an end

Expressions are parsed by level, so that nine calls lead down from the loosest
level to an atom before a token is passed.  The rank of a function is its
distance from the atoms; with the commas between arguments, which stand above all
levels, there are ten ranks.  A call is as heavy as ten times the tokens left for
it and its rank, and the plan of a call makes lighter calls only.
-/

namespace CharacterSheet
namespace Formula
namespace Parser

open CharacterSheet.Descent (weight weight_lt_of_rank_lt weight_lt_of_length_lt)

/-- A call of one of the functions of the parser, less the tokens. -/
inductive Call where
  | joined (level : Level)
  | moreOperands (level : Level) (left : Expression)
  | operand (level : Level)
  | signed
  | power
  | atom
  | commaSeparated

namespace Call

/-- What a call reads. -/
@[reducible]
def Result : Call → Type
  | commaSeparated => List Expression
  | _ => Expression

/-- Carry out a call under a bound. -/
def run (depth : Nat) : (call : Call) → List Token → Except SyntaxError (call.Result × List Token)
  | joined level => Parser.joined level depth
  | moreOperands level left => Parser.moreOperands level depth left
  | operand level => Parser.operand level depth
  | signed => Parser.signed depth
  | power => Parser.power depth
  | atom => Parser.atom depth
  | commaSeparated => Parser.commaSeparated depth

/-- What a call does: which calls it makes, and what it makes of what they read. -/
def plan : (call : Call) → List Token → Plan Result SyntaxError Token call.Result
  | joined level, tokens =>
    .calls (operand level) tokens fun left rest => .reading (moreOperands level left) rest id
  | moreOperands _ left, [] => .ends (.ok (left, []))
  | moreOperands level left, token :: rest =>
    match level.operation? token with
    | none => .ends (.ok (left, token :: rest))
    | some operation =>
      .calls (operand level) rest fun right rest =>
        .reading (moreOperands level (.binary operation left right)) rest id
  | operand .comparison, tokens => .reading (joined .sum) tokens id
  | operand .sum, tokens => .reading (joined .product) tokens id
  | operand .product, tokens => .reading signed tokens id
  | signed, tokens =>
    match tokens with
    | .minus :: rest => .reading signed rest .negate
    | .plus :: rest => .reading signed rest id
    | _ => .reading power tokens id
  | power, tokens =>
    .calls atom tokens fun base rest =>
      match rest with
      | .power :: rest => .reading signed rest (.binary .power base)
      | _ => .ends (.ok (base, rest))
  | atom, [] => .ends (.error .unexpectedEnd)
  | atom, token :: rest =>
    match token with
    | .number value => .ends (.ok (.number value, rest))
    | .reference key => .ends (.ok (.reference key, rest))
    | .opening =>
      .calls (joined .comparison) rest fun inner rest =>
        .after (expect .closing .unclosedGroup rest) fun rest => .ends (.ok (inner, rest))
    | .name name =>
      match Builtin.ofName? name with
      | none => .ends (.error (.unknownFunction name))
      | some function =>
        .after (expect .opening .missingArguments rest) fun rest =>
          .calls commaSeparated rest fun arguments rest =>
            .after (expect .closing .unclosedArguments rest) fun rest =>
              if function.accepts arguments.length then .ends (.ok (.call function arguments, rest))
              else .ends (.error (.argumentCount name))
    | _ => .ends (.error .unexpectedToken)
  | commaSeparated, tokens =>
    .calls (joined .comparison) tokens fun first rest =>
      match rest with
      | .comma :: rest => .reading commaSeparated rest (first :: ·)
      | _ => .ends (.ok ([first], rest))

/-! ## The parser follows the plans -/

/-- Under a bound the parser does what the plan of a call says, with what its
calls come to under a bound that is smaller by one. -/
def FollowsPlan (depth : Nat) (call : Call) (tokens : List Token) : Prop :=
  call.run (depth + 1) tokens = (call.plan tokens).carriedOut fun callee => callee.run depth

section FollowsPlan

variable {depth : Nat} {level : Level} {left : Expression} {tokens : List Token}

theorem followsPlan_joined : FollowsPlan depth (joined level) tokens := by
  simp only [FollowsPlan, run, Parser.joined, plan, Plan.reading, Plan.carriedOut, id, bind_pair]

theorem followsPlan_moreOperands : FollowsPlan depth (moreOperands level left) tokens := by
  cases tokens with
  | nil => simp only [FollowsPlan, run, Parser.moreOperands, plan, Plan.carriedOut]
  | cons token rest =>
    cases joins : level.operation? token with
    | none => simp only [FollowsPlan, run, Parser.moreOperands, plan, joins, Plan.carriedOut]
    | some operation =>
      simp only [FollowsPlan, run, Parser.moreOperands, plan, joins, Plan.reading, Plan.carriedOut,
        id, bind_pair]

theorem followsPlan_operand : FollowsPlan depth (operand level) tokens := by
  cases level <;>
    simp only [FollowsPlan, run, Parser.operand, plan, Plan.reading, Plan.carriedOut, id, bind_pair]

theorem followsPlan_signed : FollowsPlan depth signed tokens := by
  simp only [FollowsPlan, run, Parser.signed, plan]
  split
  · rfl
  all_goals simp only [Plan.reading, Plan.carriedOut, id, bind_pair]

theorem followsPlan_power : FollowsPlan depth power tokens := by
  simp only [FollowsPlan, run, Parser.power, plan, Plan.carriedOut]
  refine congrArg _ (funext fun read => ?_)
  rcases read with ⟨base, rest⟩
  cases rest with
  | nil => rfl
  | cons token behind => cases token <;> rfl

theorem followsPlan_atom : FollowsPlan depth atom tokens := by
  cases tokens with
  | nil => simp only [FollowsPlan, run, Parser.atom, plan, Plan.carriedOut]
  | cons token rest =>
    cases token
    case name name =>
      cases known : Builtin.ofName? name with
      | none => simp only [FollowsPlan, run, Parser.atom, plan, known, Plan.carriedOut]
      | some function =>
        simp only [FollowsPlan, run, Parser.atom, plan, known, Plan.carriedOut,
          Plan.carriedOut_after]
        refine congrArg _ (funext fun front => congrArg _ (funext fun read => congrArg _ ?_))
        funext behind
        split <;> rfl
    all_goals
      simp only [FollowsPlan, run, Parser.atom, plan, Plan.carriedOut, Plan.carriedOut_after]
    all_goals rfl

theorem followsPlan_commaSeparated : FollowsPlan depth commaSeparated tokens := by
  simp only [FollowsPlan, run, Parser.commaSeparated, plan, Plan.carriedOut]
  refine congrArg _ (funext fun read => ?_)
  rcases read with ⟨first, rest⟩
  cases rest with
  | nil => rfl
  | cons token behind => cases token <;> rfl

end FollowsPlan

/-! ## The plans go forward -/

/-- Where no token has been passed, a call ranks below its caller. -/
@[simp]
def rank : Call → Fin 10
  | atom | moreOperands _ _ => 0
  | power => 1
  | signed => 2
  | operand .product => 3
  | joined .product => 4
  | operand .sum => 5
  | joined .sum => 6
  | operand .comparison => 7
  | joined .comparison => 8
  | commaSeparated => 9

variable {level : Level} {left : Expression} {tokens rest : List Token}

theorem rank_operand_lt : (operand level).rank < (joined level).rank := by
  cases level <;> decide

/-- An error is one of the text, and not because of the bound. -/
def AtFault (_here : List Token) (problem : SyntaxError) : Prop :=
  problem ≠ .tooDeep

/-- The plan of a call goes forward. -/
def GoesForward (call : Call) (tokens : List Token) : Prop :=
  (call.plan tokens).Forward (weight rank) AtFault (weight rank call tokens) tokens

/-- A token that is expected is passed, or its absence is an error. -/
theorem forward_expect {α : Type} {limit : Nat} {expected : Token} {error : SyntaxError}
    {here : List Token} {next : List Token → Plan Result SyntaxError Token α}
    (atFault : error ≠ .tooDeep)
    (goesOn : ∀ behind, rest = expected :: behind →
      (next behind).Forward (weight rank) AtFault limit here) :
    (Plan.after (expect expected error rest) next).Forward (weight rank) AtFault limit here := by
  refine .after (fun behind passed => goesOn behind (Grammar.expect_eq_ok.mp passed)) ?_
  intro problem refused
  unfold expect at refused
  split at refused
  · split at refused <;> cases refused
    exact atFault
  · cases refused
    exact atFault

theorem goesForward_joined : GoesForward (joined level) tokens := by
  refine .calls (List.suffix_refl _) (weight_lt_of_rank_lt rank_operand_lt (List.suffix_refl _)) ?_
  intro left rest remains
  refine .reading (List.suffix_refl _) (weight_lt_of_rank_lt ?_ remains)
  exact Nat.zero_lt_of_lt rank_operand_lt

theorem goesForward_moreOperands : GoesForward (moreOperands level left) tokens := by
  cases tokens with
  | nil => exact .read (List.suffix_refl _)
  | cons token rest =>
    simp only [GoesForward, plan]
    split
    · exact .read (List.suffix_refl _)
    · refine .calls (List.suffix_cons _ _) (weight_lt_of_length_lt (Nat.lt_succ_self _)) ?_
      intro right behind remains
      refine .reading (List.suffix_refl _) (weight_lt_of_length_lt ?_)
      exact Nat.lt_succ_of_le remains.length_le

theorem goesForward_operand : GoesForward (operand level) tokens := by
  have here : tokens <:+ tokens := List.suffix_refl tokens
  cases level <;> exact .reading here (weight_lt_of_rank_lt (by simp) here)

theorem goesForward_signed : GoesForward signed tokens := by
  have here : tokens <:+ tokens := List.suffix_refl tokens
  simp only [GoesForward, plan]
  split
  · exact .reading (List.suffix_cons _ _) (weight_lt_of_length_lt (Nat.lt_succ_self _))
  · exact .reading (List.suffix_cons _ _) (weight_lt_of_length_lt (Nat.lt_succ_self _))
  · exact .reading here (weight_lt_of_rank_lt (by simp) here)

theorem goesForward_power : GoesForward power tokens := by
  refine .calls (List.suffix_refl _) (weight_lt_of_rank_lt (by simp) (List.suffix_refl _)) ?_
  intro base rest remains
  split
  · refine .reading (List.suffix_cons _ _) (weight_lt_of_length_lt ?_)
    exact Nat.lt_of_lt_of_le (Nat.lt_succ_self _) remains.length_le
  · exact .read (List.suffix_refl _)

theorem goesForward_atom : GoesForward atom tokens := by
  cases tokens with
  | nil => exact .refuse SyntaxError.noConfusion
  | cons token rest =>
    have behind : rest <:+ token :: rest := List.suffix_cons token rest
    have fewer : rest.length < (token :: rest).length := Nat.lt_succ_self _
    cases token with
    | number | reference => exact .read behind
    | opening =>
      refine .calls behind (weight_lt_of_length_lt fewer) fun inner front remains => ?_
      refine forward_expect SyntaxError.noConfusion ?_
      rintro rest rfl
      exact .read (List.suffix_cons _ rest)
    | name name =>
      simp only [GoesForward, plan]
      split
      · exact .refuse SyntaxError.noConfusion
      · refine forward_expect SyntaxError.noConfusion ?_
        rintro inner rfl
        refine .calls ((List.suffix_cons _ inner).trans behind)
          (weight_lt_of_length_lt (Nat.lt_of_succ_lt fewer)) fun arguments front remains => ?_
        refine forward_expect SyntaxError.noConfusion ?_
        rintro rest rfl
        split
        · exact .read (List.suffix_cons _ rest)
        · exact .refuse SyntaxError.noConfusion
    | _ => exact .refuse SyntaxError.noConfusion

theorem goesForward_commaSeparated : GoesForward commaSeparated tokens := by
  refine .calls (List.suffix_refl _) (weight_lt_of_rank_lt (by simp) (List.suffix_refl _)) ?_
  intro first rest remains
  split
  · refine .reading (List.suffix_cons _ _) (weight_lt_of_length_lt ?_)
    exact Nat.lt_of_lt_of_le (Nat.lt_succ_self _) remains.length_le
  · exact .read (List.suffix_refl _)

end Call

/-- The parser as a recursive descent. -/
def descent : Descent Call.Result SyntaxError Token where
  plan := Call.plan
  run depth call := call.run depth
  run_zero call tokens read := by
    cases call <;>
      simp [Call.run, joined, moreOperands, operand, signed, power, atom, commaSeparated]
  run_succ depth call tokens := by
    cases call with
    | joined => exact Call.followsPlan_joined
    | moreOperands => exact Call.followsPlan_moreOperands
    | operand => exact Call.followsPlan_operand
    | signed => exact Call.followsPlan_signed
    | power => exact Call.followsPlan_power
    | atom => exact Call.followsPlan_atom
    | commaSeparated => exact Call.followsPlan_commaSeparated

/-- No call of the parser goes back. -/
theorem descent_forward : descent.Forward (weight Call.rank) Call.AtFault where
  plan call tokens := by
    cases call with
    | joined => exact Call.goesForward_joined
    | moreOperands => exact Call.goesForward_moreOperands
    | operand => exact Call.goesForward_operand
    | signed => exact Call.goesForward_signed
    | power => exact Call.goesForward_power
    | atom => exact Call.goesForward_atom
    | commaSeparated => exact Call.goesForward_commaSeparated
  carries _ atFault := atFault

end Parser
end Formula
end CharacterSheet
