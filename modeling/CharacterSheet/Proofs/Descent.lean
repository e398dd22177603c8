import CharacterSheet.Proofs.Except
import Mathlib.Data.List.Infix

/-!
# Recursive descent

A parser that calls itself has come to an end if its calls cannot nest for
ever.  What one call does is written down as a `Plan`: the calls that it makes,
one after the other, and what it goes on with when it is told what each of them
has read.  A `Descent` is a parser with the plans of its calls, which it carries
out under a bound on the nesting.  Whatever else calls itself is a parser that
leaves all tokens where they are, and may do without any.

`Forward` is what has to be shown of single plans: no call starts before the
place that has been reached, and each is lighter than its caller, by a weight
that counts the tokens left and ranks calls at the same token.  The rest follows
for all parsers at once: calls nest no deeper than the weight of the first, a
bound above this weight is never in the way, and the place moves forward only.
-/

namespace CharacterSheet

/-- What one call does: it ends, or it makes a call and goes on with what that
call reads and with the tokens that it leaves. -/
inductive Plan {κ : Type} (Result : κ → Type) (ε τ α : Type) : Type where
  | ends (outcome : Except ε (α × List τ))
  | calls (callee : κ) (tokens : List τ) (next : Result callee → List τ → Plan Result ε τ α)

namespace Plan

variable {κ : Type} {Result : κ → Type} {ε τ α β : Type}

/-- Go on with the outcome of a step that calls nothing. -/
def after (step : Except ε β) (next : β → Plan Result ε τ α) : Plan Result ε τ α :=
  match step with
  | .error problem => ends (.error problem)
  | .ok value => next value

/-- Make something of what one call reads. -/
def reading (callee : κ) (tokens : List τ) (make : Result callee → α) : Plan Result ε τ α :=
  calls callee tokens fun value rest => ends (.ok (make value, rest))

/-- The outcome of a plan, given what the calls in it come to. -/
def carriedOut (answer : (callee : κ) → List τ → Except ε (Result callee × List τ)) :
    Plan Result ε τ α → Except ε (α × List τ)
  | ends outcome => outcome
  | calls callee tokens next =>
    answer callee tokens >>= fun read => (next read.1 read.2).carriedOut answer

/-- What succeeds with some outcomes of the calls does so with any others that
agree where the first ones succeed. -/
theorem carriedOut_eq_ok_of_le
    {answer other : (callee : κ) → List τ → Except ε (Result callee × List τ)}
    (agrees : ∀ callee tokens read, answer callee tokens = .ok read →
      other callee tokens = .ok read)
    {plan : Plan Result ε τ α} {read : α × List τ} (reads : plan.carriedOut answer = .ok read) :
    plan.carriedOut other = .ok read := by
  induction plan with
  | ends => exact reads
  | calls callee tokens next inductionHypothesis =>
    rcases bind_eq_ok.mp reads with ⟨inner, answered, follows⟩
    exact bind_eq_ok.mpr ⟨inner, agrees _ _ _ answered, inductionHypothesis _ _ follows⟩

theorem carriedOut_after {answer : (callee : κ) → List τ → Except ε (Result callee × List τ)}
    (step : Except ε β) (next : β → Plan Result ε τ α) :
    (after step next).carriedOut answer = step >>= fun value => (next value).carriedOut answer := by
  cases step <;> rfl

/-- A plan goes forward from some tokens: calls start at an end of what is left
and are lighter than a limit, and what the plan itself refuses is at fault. -/
inductive Forward (weight : κ → List τ → Nat) (fault : List τ → ε → Prop) (limit : Nat) :
    List τ → Plan Result ε τ α → Prop where
  | ends {here : List τ} {outcome : Except ε (α × List τ)}
      (remains : ∀ value rest, outcome = .ok (value, rest) → rest <:+ here)
      (refuses : ∀ problem, outcome = .error problem → fault here problem) :
      Forward weight fault limit here (ends outcome)
  | calls {here tokens : List τ} {callee : κ} {next : Result callee → List τ → Plan Result ε τ α}
      (onward : tokens <:+ here) (lighter : weight callee tokens < limit)
      (goesOn : ∀ value rest, rest <:+ tokens → Forward weight fault limit rest (next value rest)) :
      Forward weight fault limit here (calls callee tokens next)

namespace Forward

variable {weight : κ → List τ → Nat} {fault : List τ → ε → Prop} {limit : Nat} {here : List τ}
  {plan : Plan Result ε τ α}
  {answer other : (callee : κ) → List τ → Except ε (Result callee × List τ)}

theorem read {value : α} {rest : List τ} (remains : rest <:+ here) :
    (Plan.ends (.ok (value, rest)) : Plan Result ε τ α).Forward weight fault limit here := by
  refine .ends ?_ ?_
  · rintro _ _ ⟨⟩
    exact remains
  · rintro _ ⟨⟩

theorem refuse {problem : ε} (atFault : fault here problem) :
    (Plan.ends (.error problem) : Plan Result ε τ α).Forward weight fault limit here := by
  refine .ends ?_ ?_
  · rintro _ _ ⟨⟩
  · rintro _ ⟨⟩
    exact atFault

theorem reading {callee : κ} {tokens : List τ} {make : Result callee → α}
    (onward : tokens <:+ here) (lighter : weight callee tokens < limit) :
    (Plan.reading callee tokens make : Plan Result ε τ α).Forward weight fault limit here :=
  .calls onward lighter fun _ rest _ => read (List.suffix_refl rest)

theorem after {step : Except ε β} {next : β → Plan Result ε τ α}
    (passes : ∀ value, step = .ok value → (next value).Forward weight fault limit here)
    (refuses : ∀ problem, step = .error problem → fault here problem) :
    (Plan.after step next).Forward weight fault limit here := by
  cases step with
  | error problem => exact refuse (refuses problem rfl)
  | ok value => exact passes value rfl

/-- What is left at the end is an end of the tokens, if this is so of the calls
in between. -/
theorem remains (forward : plan.Forward weight fault limit here)
    (answers : ∀ callee tokens value rest, answer callee tokens = .ok (value, rest) →
      rest <:+ tokens)
    {value : α} {rest : List τ} (reads : plan.carriedOut answer = .ok (value, rest)) :
    rest <:+ here := by
  induction forward with
  | ends remains _ => exact remains value rest reads
  | calls onward _ _ inductionHypothesis =>
    rcases bind_eq_ok.mp reads with ⟨read, answered, follows⟩
    have behind := answers _ _ _ _ answered
    exact (inductionHypothesis _ _ behind follows).trans (behind.trans onward)

/-- Lighter calls decide what comes of a plan. -/
theorem congr (forward : plan.Forward weight fault limit here)
    (answers : ∀ callee tokens value rest, answer callee tokens = .ok (value, rest) →
      rest <:+ tokens)
    (same : ∀ callee tokens, weight callee tokens < limit →
      answer callee tokens = other callee tokens) :
    plan.carriedOut answer = plan.carriedOut other := by
  induction forward with
  | ends => rfl
  | calls _ lighter _ inductionHypothesis =>
    rw [carriedOut, carriedOut, ← same _ _ lighter]
    cases answered : answer _ _ with
    | error problem => rfl
    | ok read => exact inductionHypothesis _ _ (answers _ _ _ _ answered)

/-- If lighter calls are refused for their faults only, so is the plan. -/
theorem refuses (forward : plan.Forward weight fault limit here)
    (carries : ∀ {rest here problem}, rest <:+ here → fault rest problem → fault here problem)
    (answers : ∀ callee tokens value rest, answer callee tokens = .ok (value, rest) →
      rest <:+ tokens)
    (faults : ∀ callee tokens problem, weight callee tokens < limit →
      answer callee tokens = .error problem → fault tokens problem)
    {problem : ε} (refused : plan.carriedOut answer = .error problem) : fault here problem := by
  induction forward with
  | ends _ refuses => exact refuses problem refused
  | calls onward lighter _ inductionHypothesis =>
    rcases bind_eq_error.mp refused with refused | ⟨read, answered, follows⟩
    · exact carries onward (faults _ _ _ lighter refused)
    · have behind := answers _ _ _ _ answered
      exact carries (behind.trans onward) (inductionHypothesis _ _ behind follows)

end Forward
end Plan

namespace Descent

section Weight

variable {κ τ : Type} {ranks : Nat}

/-- The weight of a call is its rank, and as much as all ranks for every token
that is left. -/
def weight (rank : κ → Fin ranks) (call : κ) (tokens : List τ) : Nat :=
  ranks * tokens.length + rank call

variable {rank : κ → Fin ranks} {caller callee : κ} {tokens rest : List τ}

/-- Where no token is passed, the ranks decide. -/
theorem weight_lt_of_rank_lt (ranked : rank callee < rank caller) (remains : rest <:+ tokens) :
    weight rank callee rest < weight rank caller tokens :=
  Nat.add_lt_add_of_le_of_lt (Nat.mul_le_mul_left ranks remains.length_le) ranked

/-- A token that is passed counts more than any rank. -/
theorem weight_lt_of_length_lt (fewer : rest.length < tokens.length) :
    weight rank callee rest < weight rank caller tokens :=
  calc
    ranks * rest.length + rank callee < ranks * rest.length + ranks :=
      Nat.add_lt_add_left (rank callee).isLt _
    _ = ranks * (rest.length + 1) := (Nat.mul_succ _ _).symm
    _ ≤ ranks * tokens.length := Nat.mul_le_mul_left ranks fewer
    _ ≤ ranks * tokens.length + rank caller := Nat.le_add_right _ _

end Weight

end Descent

/-- A parser whose calls follow plans, under a bound on the nesting of calls. -/
structure Descent {κ : Type} (Result : κ → Type) (ε τ : Type) where
  plan : (call : κ) → List τ → Plan Result ε τ (Result call)
  run : Nat → (call : κ) → List τ → Except ε (Result call × List τ)
  run_zero : ∀ call tokens read, run 0 call tokens ≠ .ok read
  run_succ : ∀ depth call tokens,
    run (depth + 1) call tokens = (plan call tokens).carriedOut (run depth)

namespace Descent

variable {κ : Type} {Result : κ → Type} {ε τ : Type} (descent : Descent Result ε τ)

/-- Carry out plans, and give up on calls that nest deeper than the bound. -/
def runPlans (plan : (call : κ) → List τ → Plan Result ε τ (Result call)) (givenUp : ε) :
    Nat → (call : κ) → List τ → Except ε (Result call × List τ)
  | 0, _, _ => .error givenUp
  | depth + 1, call, tokens => (plan call tokens).carriedOut (runPlans plan givenUp depth)

/-- Plans that nothing else is known to follow make a descent of their own. -/
def ofPlans (plan : (call : κ) → List τ → Plan Result ε τ (Result call)) (givenUp : ε) :
    Descent Result ε τ where
  plan := plan
  run := runPlans plan givenUp
  run_zero _ _ _ := by rintro ⟨⟩
  run_succ _ _ _ := rfl

/-- A call reads a value, under some bound, and leaves some tokens. -/
def Reads (call : κ) (tokens : List τ) (value : Result call) (rest : List τ) : Prop :=
  ∃ depth, descent.run depth call tokens = .ok (value, rest)

/-- In the course of a call its plan comes down to another, with these tokens
left. -/
inductive Reaches (call : κ) (tokens : List τ) :
    List τ → Plan Result ε τ (Result call) → Prop where
  | start : Reaches call tokens tokens (descent.plan call tokens)
  | goesOn {here calleeTokens rest : List τ} {callee : κ} {value : Result callee}
      {next : Result callee → List τ → Plan Result ε τ (Result call)}
      (reaches : Reaches call tokens here (.calls callee calleeTokens next))
      (reads : descent.Reads callee calleeTokens value rest) :
      Reaches call tokens rest (next value rest)

/-- A higher bound does not change what is read. -/
theorem run_eq_ok_of_le {depth other : Nat} (le : depth ≤ other) {call : κ} {tokens : List τ}
    {read : Result call × List τ} (reads : descent.run depth call tokens = .ok read) :
    descent.run other call tokens = .ok read := by
  induction depth generalizing other call tokens with
  | zero => exact absurd reads (descent.run_zero _ _ _)
  | succ depth inductionHypothesis =>
    cases other with
    | zero => cases le
    | succ other =>
      rw [descent.run_succ] at reads ⊢
      refine Plan.carriedOut_eq_ok_of_le (fun callee front inner answered => ?_) reads
      exact inductionHypothesis (Nat.le_of_succ_le_succ le) answered

/-- A call at some tokens makes another one. -/
def Calls (caller callee : κ × List τ) : Prop :=
  ∃ here next, descent.Reaches caller.1 caller.2 here (.calls callee.1 callee.2 next)

/-- Calls that are made in the course of one call, with the number of calls
around them. -/
inductive Nested (root : κ × List τ) : Nat → κ × List τ → Prop where
  | root : Nested root 0 root
  | call {level : Nat} {caller callee : κ × List τ} (nested : Nested root level caller)
      (calls : descent.Calls caller callee) : Nested root (level + 1) callee

/-- All plans of a parser go forward, each below the weight of its call. -/
structure Forward (weight : κ → List τ → Nat) (fault : List τ → ε → Prop) : Prop where
  plan : ∀ call tokens, (descent.plan call tokens).Forward weight fault (weight call tokens) tokens
  carries : ∀ {rest here problem}, rest <:+ here → fault rest problem → fault here problem

/-- A call comes to an end, with an outcome that no bound has a part in.  Calls
in it nest no deeper than a bound, and the place among the tokens moves forward
only: what is left of them is always an end of what was left before. -/
structure Finishes (fault : List τ → ε → Prop) (bound : Nat) (call : κ) (tokens : List τ)
    (outcome : Except ε (Result call × List τ)) : Prop where
  settled : ∀ depth, bound < depth → descent.run depth call tokens = outcome
  refused : ∀ problem, outcome = .error problem → fault tokens problem
  nesting : ∀ level inner, descent.Nested (call, tokens) level inner → level ≤ bound
  onward : ∀ level caller callee, descent.Nested (call, tokens) level caller →
    descent.Calls caller callee → callee.2 <:+ caller.2
  within : ∀ level inner, descent.Nested (call, tokens) level inner → inner.2 <:+ tokens
  /-- Up to each call that it makes, a call moves forward ... -/
  reaching : ∀ level caller here callee front next, descent.Nested (call, tokens) level caller →
    descent.Reaches caller.1 caller.2 here (.calls callee front next) →
    here <:+ caller.2 ∧ front <:+ here
  /-- ... and so it does up to its end. -/
  leaving : ∀ level inner here value rest, descent.Nested (call, tokens) level inner →
    descent.Reaches inner.1 inner.2 here (.ends (.ok (value, rest))) →
    here <:+ inner.2 ∧ rest <:+ here

/-- A higher bound is as good. -/
theorem Finishes.mono {descent : Descent Result ε τ} {fault : List τ → ε → Prop}
    {bound higher : Nat} {call : κ} {tokens : List τ} {outcome : Except ε (Result call × List τ)}
    (finishes : descent.Finishes fault bound call tokens outcome) (le : bound ≤ higher) :
    descent.Finishes fault higher call tokens outcome :=
  { finishes with
    settled := fun depth enough => finishes.settled depth (Nat.lt_of_le_of_lt le enough)
    nesting := fun level inner nested => Nat.le_trans (finishes.nesting level inner nested) le }

namespace Forward

variable {descent} {weight : κ → List τ → Nat} {fault : List τ → ε → Prop}
  {call : κ} {tokens rest : List τ} {value : Result call} {depth other : Nat}

/-- What a call leaves is an end of its tokens, whatever the bound. -/
theorem remains (forward : descent.Forward weight fault)
    (reads : descent.run depth call tokens = .ok (value, rest)) : rest <:+ tokens := by
  induction depth generalizing call tokens rest with
  | zero => exact absurd reads (descent.run_zero _ _ _)
  | succ depth inductionHypothesis =>
    rw [descent.run_succ] at reads
    exact (forward.plan call tokens).remains (fun _ _ _ _ => inductionHypothesis) reads

/-- All bounds above the weight of a call give the same outcome. -/
theorem run_eq (forward : descent.Forward weight fault) (enough : weight call tokens < depth)
    (enoughToo : weight call tokens < other) :
    descent.run depth call tokens = descent.run other call tokens := by
  induction depth generalizing call tokens other with
  | zero => cases enough
  | succ depth inductionHypothesis =>
    cases other with
    | zero => cases enoughToo
    | succ other =>
      rw [descent.run_succ, descent.run_succ]
      refine (forward.plan call tokens).congr (fun _ _ _ _ => forward.remains) ?_
      intro callee front lighter
      exact inductionHypothesis (Nat.lt_of_lt_of_le lighter (Nat.le_of_lt_succ enough))
        (Nat.lt_of_lt_of_le lighter (Nat.le_of_lt_succ enoughToo))

/-- Outcomes that agree with all plans are what calls come to. -/
theorem run_eq_answer (forward : descent.Forward weight fault)
    {answer : (callee : κ) → List τ → Except ε (Result callee × List τ)}
    (agrees : ∀ callee tokens,
      (descent.plan callee tokens).carriedOut answer = answer callee tokens)
    (enough : weight call tokens < depth) : descent.run depth call tokens = answer call tokens := by
  induction depth generalizing call tokens with
  | zero => cases enough
  | succ depth inductionHypothesis =>
    rw [descent.run_succ, ← agrees]
    refine (forward.plan call tokens).congr (fun _ _ _ _ => forward.remains) ?_
    intro callee front lighter
    exact inductionHypothesis (Nat.lt_of_lt_of_le lighter (Nat.le_of_lt_succ enough))

/-- What a call reads under any bound is the outcome that agrees with all plans. -/
theorem answer_eq_of_reads (forward : descent.Forward weight fault)
    {answer : (callee : κ) → List τ → Except ε (Result callee × List τ)}
    (agrees : ∀ callee tokens,
      (descent.plan callee tokens).carriedOut answer = answer callee tokens)
    (reads : descent.Reads call tokens value rest) : answer call tokens = .ok (value, rest) := by
  rcases reads with ⟨depth, reads⟩
  rw [← forward.run_eq_answer agrees (Nat.lt_succ_of_le (Nat.le_max_right depth _))]
  exact descent.run_eq_ok_of_le (Nat.le_succ_of_le (Nat.le_max_left depth _)) reads

theorem refused (forward : descent.Forward weight fault) (enough : weight call tokens < depth)
    {problem : ε} (refused : descent.run depth call tokens = .error problem) :
    fault tokens problem := by
  induction depth generalizing call tokens problem with
  | zero => cases enough
  | succ depth inductionHypothesis =>
    rw [descent.run_succ] at refused
    refine (forward.plan call tokens).refuses forward.carries (fun _ _ _ _ => forward.remains) ?_
      refused
    intro callee front problem lighter
    exact inductionHypothesis (Nat.lt_of_lt_of_le lighter (Nat.le_of_lt_succ enough))

/-- The plan of a call keeps going forward from wherever it has got to. -/
theorem reaches (forward : descent.Forward weight fault) {here : List τ}
    {plan : Plan Result ε τ (Result call)} (reaches : descent.Reaches call tokens here plan) :
    here <:+ tokens ∧ plan.Forward weight fault (weight call tokens) here := by
  induction reaches with
  | start => exact ⟨List.suffix_refl _, forward.plan call tokens⟩
  | goesOn _ reads inductionHypothesis =>
    rcases inductionHypothesis with ⟨before, calling⟩
    rcases reads with ⟨depth, reads⟩
    have behind := forward.remains reads
    cases calling with
    | calls onward _ goesOn => exact ⟨(behind.trans onward).trans before, goesOn _ _ behind⟩

theorem calls (forward : descent.Forward weight fault) {caller callee : κ × List τ}
    (calls : descent.Calls caller callee) :
    callee.2 <:+ caller.2 ∧ weight callee.1 callee.2 < weight caller.1 caller.2 := by
  rcases calls with ⟨here, next, reached⟩
  rcases forward.reaches reached with ⟨before, calling⟩
  cases calling with
  | calls onward lighter _ => exact ⟨onward.trans before, lighter⟩

/-- Each level of nesting costs weight. -/
theorem nested (forward : descent.Forward weight fault) {root inner : κ × List τ} {level : Nat}
    (nested : descent.Nested root level inner) :
    inner.2 <:+ root.2 ∧ level + weight inner.1 inner.2 ≤ weight root.1 root.2 := by
  induction nested with
  | root => exact ⟨List.suffix_refl _, Nat.le_of_eq (Nat.zero_add _)⟩
  | call _ calls inductionHypothesis =>
    rcases forward.calls calls with ⟨onward, lighter⟩
    exact ⟨onward.trans inductionHypothesis.1, by omega⟩

/-- Where all plans go forward, calls finish, nested no deeper than their
weight. -/
theorem finishes (forward : descent.Forward weight fault) (enough : weight call tokens < depth) :
    descent.Finishes fault (weight call tokens) call tokens (descent.run depth call tokens) where
  settled _ enoughToo := forward.run_eq enoughToo enough
  refused _ := forward.refused enough
  nesting _ _ nested := Nat.le_trans (Nat.le_add_right _ _) (forward.nested nested).2
  onward _ _ _ _ calls := (forward.calls calls).1
  within _ _ nested := (forward.nested nested).1
  reaching _ _ _ _ _ _ _ reached := by
    rcases forward.reaches reached with ⟨before, calling⟩
    cases calling with
    | calls onward _ _ => exact ⟨before, onward⟩
  leaving _ _ _ _ _ _ reached := by
    rcases forward.reaches reached with ⟨before, ending⟩
    cases ending with
    | ends remains _ => exact ⟨before, remains _ _ rfl⟩

end Forward
end Descent
end CharacterSheet
