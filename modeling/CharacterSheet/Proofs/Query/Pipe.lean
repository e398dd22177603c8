import CharacterSheet.Proofs.Query.Reading
import CharacterSheet.Proofs.Query.Scanning

/-!
# A pipe composes queries

Two queries with a pipe between them search what the first finds with the
second.  The first query is read up to the pipe as it is read alone, because no
part of it goes on over a pipe.  The second may have pipes of its own.  They
group to the left, so that the tree is not that of the second query below a
pipe, but finds the same.
-/

namespace CharacterSheet
namespace Query
namespace Parser

/-- The runs of `extended` that succeed: an operand before some tokens is
extended by one token after the other that binds more strongly than given. -/
inductive Extending (total power : Nat) :
    Nat → Expression → List Token → Expression → List Token → Prop
  | ends {depth : Nat} {left : Expression} {tokens : List Token}
      (loose : ∀ token ∈ tokens.head?, bindingPower token ≤ power) :
      Extending total power (depth + 1) left tokens left tokens
  | goesOn {depth : Nat} {left longer whole : Expression} {token : Token}
      {behind remaining rest : List Token}
      (binds : power < bindingPower token)
      (taken : extension total depth left token behind = .ok (longer, remaining))
      (continues : Extending total power depth longer remaining whole rest) :
      Extending total power (depth + 1) left (token :: behind) whole rest

variable {total other depth deeper power : Nat} {left whole : Expression}
  {tokens rest tail : List Token}

theorem extended_eq_ok :
    extended total depth power left tokens = .ok (whole, rest) ↔
      Extending total power depth left tokens whole rest := by
  induction depth generalizing left tokens with
  | zero =>
    constructor
    · intro reads
      rw [extended] at reads
      cases reads
    · intro run
      cases run
  | succ depth inductionHypothesis =>
    cases tokens with
    | nil =>
      rw [extended]
      constructor
      · rintro ⟨⟩
        exact .ends fun token first => by cases first
      · rintro ⟨⟩
        rfl
    | cons token behind =>
      rw [extended]
      by_cases binds : power < bindingPower token
      · rw [if_pos binds, bind_eq_ok]
        constructor
        · rintro ⟨⟨longer, remaining⟩, taken, continues⟩
          exact .goesOn binds taken (inductionHypothesis.mp continues)
        · intro run
          cases run with
          | ends loose => exact absurd binds (Nat.not_lt.mpr (loose token rfl))
          | goesOn _ taken continues =>
            exact ⟨_, taken, inductionHypothesis.mpr continues⟩
      · rw [if_neg binds]
        constructor
        · rintro ⟨⟩
          refine .ends fun token first => ?_
          cases first
          exact Nat.not_lt.mp binds
        · intro run
          cases run with
          | ends => rfl
          | goesOn tight => exact absurd tight binds

namespace Extending

/-- What remains does not bind. -/
theorem loose (run : Extending total power depth left tokens whole rest) :
    ∀ token ∈ rest.head?, bindingPower token ≤ power := by
  induction run with
  | ends loose => exact loose
  | goesOn _ _ _ inductionHypothesis => exact inductionHypothesis

/-- To extend an operand is to extend it by what binds tightly first. -/
theorem split {tight : Nat} (ordered : power ≤ tight)
    (run : Extending total power depth left tokens whole rest) :
    ∃ middle behind lower, lower ≤ depth ∧
      Extending total tight depth left tokens middle behind ∧
      Extending total power lower middle behind whole rest := by
  induction run with
  | @ends depth left tokens loose =>
    refine ⟨left, tokens, depth + 1, Nat.le_refl _, ?_, .ends loose⟩
    exact .ends fun token first => Nat.le_trans (loose token first) ordered
  | @goesOn depth left longer whole token behind remaining rest binds taken continues
      inductionHypothesis =>
    by_cases tightly : tight < bindingPower token
    · rcases inductionHypothesis with ⟨middle, later, lower, below, first, second⟩
      exact ⟨middle, later, lower, Nat.le_succ_of_le below, .goesOn tightly taken first, second⟩
    · refine ⟨left, token :: behind, depth + 1, Nat.le_refl _, ?_,
        .goesOn binds taken continues⟩
      refine .ends fun token first => ?_
      cases first
      exact Nat.not_lt.mp tightly

/-- An operand that all tokens extend is extended in the same way before more
tokens that do not bind.  Each token costs at most one unit of the bound. -/
theorem append (run : Extending total power depth left tokens whole [])
    (stops : Stops (power + 1) tail) (ordered : depth ≤ deeper) :
    ∃ lower, deeper ≤ lower + tokens.length ∧ ∀ last behind,
      Extending other power lower whole tail last behind →
        Extending other power deeper left (tokens ++ tail) last behind := by
  generalize empty : ([] : List Token) = rest at run
  induction run generalizing deeper with
  | ends =>
    subst empty
    exact ⟨deeper, Nat.le_refl _, fun _ _ later => later⟩
  | @goesOn depth left longer whole token behind remaining rest binds taken continues
      inductionHypothesis =>
    obtain ⟨deeper, rfl⟩ : ∃ lower, deeper = lower + 1 :=
      Nat.exists_eq_succ_of_ne_zero (Nat.ne_zero_of_lt ordered)
    have below := Nat.le_of_succ_le_succ ordered
    rcases (framed total other below).extension left token behind longer remaining taken with
      ⟨suffix, extendsBefore⟩
    have longerExtends := extendsBefore tail fun _ => stops.mono binds
    rcases inductionHypothesis below empty with ⟨lower, enough, onwards⟩
    have shorter := suffix.length_le
    refine ⟨lower, ?_, fun last later run => ?_⟩
    · rw [List.length_cons]
      omega
    · exact .goesOn binds longerExtends (onwards last later run)

end Extending

theorem expression_eq_ok :
    expression total depth power tokens = .ok (whole, rest) ↔
      ∃ lower left behind, depth = lower + 1 ∧
        operand total lower tokens = .ok (left, behind) ∧
        Extending total power lower left behind whole rest := by
  cases depth with
  | zero => simp [expression]
  | succ lower =>
    simp only [expression, bind_eq_ok, Prod.exists, extended_eq_ok, Nat.succ.injEq,
      exists_and_left, exists_eq_left']

/-- A pipe extends an operand by a query without pipes. -/
theorem extension_pipe_eq_ok :
    extension total depth left .pipe tokens = .ok (whole, rest) ↔
      ∃ lower right, depth = lower + 1 ∧
        expression total lower (bindingPower .pipe) tokens = .ok (right, rest) ∧
        whole = .pipe left right := by
  cases depth with
  | zero => simp [extension]
  | succ lower =>
    simp only [extension, bind_eq_ok, Prod.exists, Nat.succ.injEq, exists_and_left,
      exists_eq_left']
    constructor
    · rintro ⟨right, behind, reads, ⟨⟩⟩
      exact ⟨right, reads, rfl⟩
    · rintro ⟨right, reads, rfl⟩
      exact ⟨right, rest, reads, rfl⟩

/-- A larger bound, or another number of tokens in error messages, does not
matter. -/
theorem expression_mono (other : Nat)
    (reads : expression total depth power tokens = .ok (whole, rest))
    (ordered : depth ≤ deeper) : expression other deeper power tokens = .ok (whole, rest) := by
  rcases (framed total other ordered).expression power tokens whole rest reads with ⟨-, longer⟩
  simpa only [List.append_nil] using longer [] fun _ => .nil

/-- What is read to the end of the tokens is read up to more tokens that do
not bind, and then extended by them. -/
theorem expression_append (other : Nat)
    (reads : expression total depth power tokens = .ok (whole, []))
    (stops : Stops (power + 1) tail) (strong : power < projectionEnd) (ordered : depth ≤ deeper) :
    ∃ lower, deeper ≤ lower + tokens.length + 1 ∧ ∀ last behind,
      Extending other power lower whole tail last behind →
        expression other deeper power (tokens ++ tail) = .ok (last, behind) := by
  rcases expression_eq_ok.mp reads with ⟨depth, left, behind, rfl, readsOperand, run⟩
  obtain ⟨spare, rfl⟩ := Nat.exists_eq_add_of_lt ordered
  have below : depth ≤ depth + spare := Nat.le_add_right depth spare
  rcases (framed total other below).operand tokens left behind readsOperand with
    ⟨suffix, readsBefore⟩
  have operandStops : Stops projectionEnd tail := stops.mono strong
  have longerOperand := readsBefore tail fun _ => operandStops
  rcases run.append stops below with ⟨lower, enough, onwards⟩
  have shorter := suffix.length_le
  refine ⟨lower, ?_, fun last later more => ?_⟩
  · omega
  · exact expression_eq_ok.mpr ⟨_, _, _, rfl, longerOperand, onwards last later more⟩

end Parser

namespace Expression

/-- A query finds what a second one finds in what a first one finds. -/
def Composes (first second whole : Expression) : Prop :=
  ∀ data, whole.search data = second.search (first.search data)

theorem Composes.pipe {first second whole : Expression} (composes : Composes first second whole)
    (last : Expression) : Composes first (.pipe second last) (.pipe whole last) := by
  intro data
  simp only [search, composes data]

end Expression

namespace Parser

open Expression (Composes)

/-- Pipes behind a query that composes two others extend it to one that
composes the first of these and what the pipes make of the second. -/
theorem Extending.composes (other : Nat) {first composed : Expression}
    (run : Extending total 0 depth left tokens whole [])
    (loose : ∀ token ∈ tokens.head?, bindingPower token ≤ bindingPower .pipe)
    (ordered : depth ≤ deeper) (composes : Composes first left composed) :
    ∃ piped, Extending other 0 deeper composed tokens piped [] ∧ Composes first whole piped := by
  generalize empty : ([] : List Token) = rest at run
  induction run generalizing deeper composed with
  | ends ends =>
    subst empty
    obtain ⟨deeper, rfl⟩ := Nat.exists_eq_add_of_lt ordered
    exact ⟨composed, .ends ends, composes⟩
  | @goesOn depth left longer whole token behind remaining rest binds taken continues
      inductionHypothesis =>
    obtain ⟨spare, rfl⟩ := Nat.exists_eq_add_of_lt ordered
    have isPipe : token = .pipe := by
      have power := loose token rfl
      cases token <;> simp_all [bindingPower]
    subst isPipe
    rcases extension_pipe_eq_ok.mp taken with ⟨lower, right, rfl, reads, rfl⟩
    have readsAgain := expression_mono other reads (Nat.le_add_right lower spare)
    rcases expression_eq_ok.mp reads with ⟨_, _, _, _, _, operandRun⟩
    rcases inductionHypothesis operandRun.loose (Nat.le_add_right (lower + 1) spare)
      (composes.pipe right) empty with ⟨piped, pipedRun, pipedComposes⟩
    have taken : extension other (lower + spare + 1) composed .pipe behind =
        .ok (.pipe composed right, remaining) :=
      extension_pipe_eq_ok.mpr ⟨lower + spare, right, rfl, readsAgain, rfl⟩
    rw [Nat.add_right_comm] at taken
    exact ⟨piped, .goesOn binds taken pipedRun, pipedComposes⟩

/-- A pipe before a query extends an operand to what composes both. -/
theorem extending_pipe {second : Expression}
    (reads : expression total depth 0 tokens = .ok (second, [])) (ordered : depth + 2 ≤ deeper)
    (first : Expression) :
    ∃ piped, Extending other 0 deeper first (.pipe :: tokens) piped [] ∧
      Composes first second piped := by
  rcases expression_eq_ok.mp reads with ⟨depth, left, behind, rfl, readsOperand, run⟩
  rcases run.split (Nat.zero_le (bindingPower .pipe)) with
    ⟨middle, remaining, lower, below, upToPipe, pipes⟩
  have readsMiddle : expression total (depth + 1) (bindingPower .pipe) tokens =
      .ok (middle, remaining) :=
    expression_eq_ok.mpr ⟨depth, left, behind, rfl, readsOperand, upToPipe⟩
  obtain ⟨deeper, rfl⟩ : ∃ lower, deeper = lower + 2 := Nat.exists_eq_add_of_le' (by omega)
  have readsAgain := expression_mono other readsMiddle (Nat.le_of_add_le_add_right ordered)
  have taken : extension other (deeper + 1) first .pipe tokens =
      .ok (.pipe first middle, remaining) :=
    extension_pipe_eq_ok.mpr ⟨deeper, middle, rfl, readsAgain, rfl⟩
  have composes : Composes first middle (.pipe first middle) := fun data => by
    simp only [Expression.search]
  have room : lower ≤ deeper + 1 := by omega
  rcases pipes.composes other upToPipe.loose room composes with
    ⟨piped, pipedRun, pipedComposes⟩
  exact ⟨piped, .goesOn (by decide) taken pipedRun, pipedComposes⟩

end Parser

namespace Expression

/-- Tokens spell a query that reading passes all of them for. -/
theorem ofTokens_eq_ok {tokens : List Token} {whole : Expression} :
    ofTokens tokens = .ok whole ↔
      Parser.expression tokens.length (Parser.depthBound tokens.length) 0 tokens =
        .ok (whole, []) := by
  simp only [ofTokens, bind_eq_ok, Prod.exists]
  constructor
  · rintro ⟨expression, rest, reads, finished⟩
    cases rest with
    | nil =>
      cases finished
      exact reads
    | cons token rest => cases finished
  · intro reads
    exact ⟨whole, [], reads, rfl⟩

/-- A single token is a query if it is an operand. -/
theorem ofTokens_single {token : Token} {whole : Expression}
    (reads : Parser.operand 1 15 [token] = .ok (whole, [])) : ofTokens [token] = .ok whole :=
  ofTokens_eq_ok.mpr
    (Parser.expression_eq_ok.mpr ⟨15, _, _, rfl, reads, .ends (by rintro _ ⟨⟩)⟩)

/-- The tokens of two queries with a pipe between them are those of a query
that composes both. -/
theorem ofTokens_pipe {tokens later : List Token} {first second : Expression}
    (reads : ofTokens tokens = .ok first) (readsLater : ofTokens later = .ok second) :
    ∃ piped, ofTokens (tokens ++ .pipe :: later) = .ok piped ∧ Composes first second piped := by
  rw [ofTokens_eq_ok] at reads readsLater
  have stops : Parser.Stops 1 (.pipe :: later) :=
    { weak := by rintro _ ⟨⟩; decide
      loose := by rintro _ ⟨⟩; decide }
  have longer : tokens.length ≤ (tokens ++ .pipe :: later).length := by simp
  rcases Parser.expression_append (tokens ++ .pipe :: later).length reads stops (by decide)
    (Nat.add_le_add_right (Nat.mul_le_mul_left 8 longer) 8) with ⟨lower, enough, onwards⟩
  have ordered : Parser.depthBound later.length + 2 ≤ lower := by
    simp only [Parser.depthBound, List.length_append, List.length_cons] at enough ⊢
    omega
  rcases Parser.extending_pipe readsLater ordered first with ⟨piped, run, composes⟩
  exact ⟨piped, ofTokens_eq_ok.mpr (onwards piped [] run), composes⟩

/-- A pipe composes queries. -/
theorem search_pipe {query other : String} {first second : Expression}
    (parses : parse query = .ok first) (otherParses : parse other = .ok second) :
    ∃ piped, parse (query ++ " | " ++ other) = .ok piped ∧
      ∀ data, piped.search data = second.search (first.search data) := by
  rcases bind_eq_ok.mp parses with ⟨tokens, scanned, reads⟩
  rcases bind_eq_ok.mp otherParses with ⟨later, scannedOther, readsOther⟩
  rcases ofTokens_pipe reads readsOther with ⟨piped, readsBoth, composes⟩
  refine ⟨piped, bind_eq_ok.mpr ⟨_, ?_, readsBoth⟩, composes⟩
  rw [String.toList_append, String.toList_append]
  exact Token.scan_pipe scanned scannedOther

/-- A projection at the end of the first query ends at the pipe, and the pipe
of the second query applies to what both find. -/
theorem search_pipe_projection :
    parse "a[*].b" = .ok (.project (.field "a") (.field "b")) ∧
      parse "c[] | d" =
        .ok (.pipe (.project (.flatten (.field "c")) .current) (.field "d")) ∧
      ∃ piped, parse ("a[*].b" ++ " | " ++ "c[] | d") = .ok piped ∧
        ∀ data, piped.search data =
          (Expression.pipe (.project (.flatten (.field "c")) .current) (.field "d")).search
            ((Expression.project (.field "a") (.field "b")).search data) := by
  have projection : parse "a[*].b" = .ok (.project (.field "a") (.field "b")) := by
    with_unfolding_all rfl
  have piping : parse "c[] | d" =
      .ok (.pipe (.project (.flatten (.field "c")) .current) (.field "d")) := by
    with_unfolding_all rfl
  exact ⟨projection, piping, search_pipe projection piping⟩

end Expression
end Query
end CharacterSheet
