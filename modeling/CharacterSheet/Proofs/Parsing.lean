import CharacterSheet.Proofs.Formula.Descent
import CharacterSheet.Proofs.Formula.References
import CharacterSheet.Proofs.Query.Descent
import CharacterSheet.Proofs.Query.Scanning

/-!
# Texts are parsed in the end

A text is scanned token by token, and its tokens are then read by one call of a
recursive descent that must not leave any of them.  Neither the bound on the text
nor that on the nesting of calls is ever in the way: the scanner goes forward in
the text, and the parser in its tokens.
-/

namespace CharacterSheet

/-- A scanner takes one token after another off a text, under a bound on the
length of the text. -/
structure Scanner (ε τ : Type) where
  one : Char → List Char → Except ε (τ × List Char)
  within : Nat → List Char → Except ε (List τ)
  within_nil : ∀ bound, within bound [] = .ok []
  within_cons : ∀ bound c rest, within (bound + 1) (c :: rest) =
    if Text.isBlank c then within bound rest
    else one c rest >>= fun read => within bound read.2 >>= fun tokens => .ok (read.1 :: tokens)
  onward : ∀ {c rest token behind}, one c rest = .ok (token, behind) → behind <:+ rest

/-- A bound that is not below the length of a text is not what the scanner fails
for. -/
theorem Scanner.genuine {ε τ : Type} (scanner : Scanner ε τ) {givenUp : ε → Prop}
    (oneGenuine : ∀ c rest problem, scanner.one c rest = .error problem → ¬ givenUp problem)
    {bound : Nat} {text : List Char} (enough : text.length ≤ bound) {problem : ε}
    (refused : scanner.within bound text = .error problem) : ¬ givenUp problem := by
  induction bound generalizing text problem with
  | zero =>
    cases List.eq_nil_of_length_eq_zero (Nat.le_zero.mp enough)
    rw [scanner.within_nil] at refused
    cases refused
  | succ bound inductionHypothesis =>
    cases text with
    | nil =>
      rw [scanner.within_nil] at refused
      cases refused
    | cons c rest =>
      have fewer : rest.length ≤ bound := Nat.le_of_succ_le_succ enough
      rw [scanner.within_cons] at refused
      split at refused
      · exact inductionHypothesis fewer refused
      · rcases bind_eq_error.mp refused with refused | ⟨read, scanned, follows⟩
        · exact oneGenuine c rest problem refused
        · rcases bind_eq_error.mp follows with refused | ⟨tokens, _, result⟩
          · exact inductionHypothesis ((scanner.onward scanned).length_le.trans fewer) refused
          · cases result

namespace Descent

variable {κ : Type} {Result : κ → Type} {ε τ : Type}

/-- Read tokens by one call, which must not leave any of them. -/
def whole (descent : Descent Result ε τ) (depth : Nat) (first : κ) (trailing : List τ → ε)
    (tokens : List τ) : Except ε (Result first) :=
  descent.run depth first tokens >>= fun read =>
    if read.2.isEmpty then .ok read.1 else .error (trailing read.2)

/-- Parsing a text comes to an end, with a value or with an error of the text. -/
structure Parses (descent : Nat → Descent Result ε τ) (first : κ) (bound : Nat → Nat)
    (fault : Nat → List τ → ε → Prop) (givenUp : ε → Prop) (scanned : Except ε (List τ))
    (parsed : Except ε (Result first)) : Prop where
  /-- No bound has been too low. -/
  genuine : ∀ problem, parsed = .error problem → ¬ givenUp problem
  /-- A value is read from all the tokens of the text. -/
  exhausts : ∀ value, parsed = .ok value → ∃ tokens, scanned = .ok tokens ∧
    ∀ depth, bound tokens.length < depth →
      (descent tokens.length).run depth first tokens = .ok (value, [])
  /-- Calls go forward only, and their nesting is bounded by the number of the tokens. -/
  finishes : ∀ tokens, scanned = .ok tokens → ∃ outcome,
    (descent tokens.length).Finishes (fault tokens.length) (bound tokens.length) first tokens
      outcome

/-- A parser that goes forward, with a bound above the weight of its first call,
parses whatever is scanned. -/
theorem Forward.parses {descent : Nat → Descent Result ε τ} {ranks : Nat} {rank : κ → Fin ranks}
    {fault : Nat → List τ → ε → Prop} {givenUp : ε → Prop}
    (forward : ∀ total, (descent total).Forward (weight rank) (fault total))
    (first : κ) (depth : Nat → Nat) (enough : ∀ count, ranks * count + rank first < depth count)
    (trailing : Nat → List τ → ε)
    (faultGenuine : ∀ total here problem, fault total here problem → ¬ givenUp problem)
    (trailingGenuine : ∀ total rest, ¬ givenUp (trailing total rest))
    (scanned : Except ε (List τ))
    (scansGenuinely : ∀ problem, scanned = .error problem → ¬ givenUp problem) :
    Parses descent first (fun count => ranks * count + rank first) fault givenUp scanned
      (scanned >>= fun tokens =>
        (descent tokens.length).whole (depth tokens.length) first (trailing tokens.length) tokens)
    where
  genuine problem refused := by
    rcases bind_eq_error.mp refused with refused | ⟨tokens, _, follows⟩
    · exact scansGenuinely problem refused
    · rcases bind_eq_error.mp follows with refused | ⟨read, _, leaves⟩
      · exact faultGenuine _ _ _ ((forward _).refused (enough _) refused)
      · split at leaves <;> cases leaves
        exact trailingGenuine _ _
  exhausts value succeeds := by
    rcases bind_eq_ok.mp succeeds with ⟨tokens, scanned, follows⟩
    rcases bind_eq_ok.mp follows with ⟨⟨read, rest⟩, reads, leaves⟩
    refine ⟨tokens, scanned, fun deeper enoughToo => ?_⟩
    split at leaves <;> cases leaves
    rename_i empty
    cases List.isEmpty_iff.mp empty
    rw [(forward _).run_eq enoughToo (enough _), reads]
  finishes tokens _ := ⟨_, (forward _).finishes (enough _)⟩

end Descent

namespace Query

/-- The scanner of queries. -/
def scanner : Scanner SyntaxError Token where
  one := Token.scanOne
  within := Token.scanWithin
  within_nil _ := by rw [Token.scanWithin]
  within_cons _ _ _ := rfl
  onward := Token.suffix_of_scanOne

/-- An error that only a bound causes. -/
def SyntaxError.GivenUp (problem : SyntaxError) : Prop :=
  ∃ position, problem = .tooDeep position

/-- A single token is refused without regard to a bound. -/
theorem scanOne_genuine {first : Char} {rest : List Char} {problem : SyntaxError}
    (refused : Token.scanOne first rest = .error problem) : ¬ problem.GivenUp := by
  rintro ⟨position, rfl⟩
  unfold Token.scanOne at refused
  split at refused
  · cases refused
  · split at refused
    · dsimp only at refused
      split at refused <;> cases refused
    · split at refused
      · split at refused
        · unfold Token.ofQuoted at refused
          split at refused
          · cases refused
          · split at refused
            · cases refused
            · split at refused <;> cases refused
        · cases refused
      · split at refused <;> cases refused

theorem not_givenUp_of_atFault {total : Nat} {here : List Token} {problem : SyntaxError}
    (atFault : Parser.AtFault total here problem) : ¬ problem.GivenUp := by
  rintro ⟨position, rfl⟩
  rcases atFault with ⟨rest, _, met⟩
  cases met

end Query

namespace Formula

/-- The scanner of expressions. -/
def scanner : Scanner SyntaxError Token where
  one := Token.scanOne
  within := Token.scanWithin
  within_nil _ := by rw [Token.scanWithin]
  within_cons _ _ _ := rfl
  onward scanned := (Token.scanOne_spec scanned).1

theorem scanOne_genuine {first : Char} {rest : List Char} {problem : SyntaxError}
    (refused : Token.scanOne first rest = .error problem) : problem ≠ .tooDeep := by
  rintro rfl
  unfold Token.scanOne at refused
  dsimp only at refused
  split at refused
  · split at refused <;> cases refused
  · split at refused
    · split at refused <;> cases refused
    · split at refused
      · cases refused
      · split at refused
        · cases refused
        · split at refused <;> cases refused

end Formula

/-- Every text is parsed as a query, and as an expression, or is refused for an
error of its own.  What is parsed takes all tokens of the text; up to then the
parser never goes back among the tokens, nor do its calls start before their
callers, and calls are nested no deeper than four times the number of the tokens
for a query, and ten times for an expression, and a constant. -/
theorem parsers_finish (text : String) :
    Descent.Parses Query.Parser.descent (.expression 0) (fun count => 4 * count + 1)
        Query.Parser.AtFault Query.SyntaxError.GivenUp
        (Query.Token.scan text.toList) (Query.Expression.parse text) ∧
      Descent.Parses (fun _ => Formula.Parser.descent) (.joined .comparison)
        (fun count => 10 * count + 8) (fun _ => Formula.Parser.Call.AtFault) (· = .tooDeep)
        (Formula.Token.scan text.toList) (Formula.Expression.parse text) := by
  constructor
  · refine Descent.Forward.parses Query.Parser.descent_forward (.expression 0)
      Query.Parser.depthBound ?_
      (fun total rest => .trailingInput (Query.Parser.position total rest)) ?_ ?_ _ ?_
    · intro count
      change 4 * count + 1 < 8 * count + 8
      omega
    · exact fun _ _ _ => Query.not_givenUp_of_atFault
    · rintro _ _ ⟨_, ⟨⟩⟩
    · exact fun _ => Query.scanner.genuine (fun _ _ _ => Query.scanOne_genuine) (Nat.le_refl _)
  · refine Descent.Forward.parses (fun _ => Formula.Parser.descent_forward) (.joined .comparison)
      Formula.Parser.depthBound ?_ (fun _ _ => .trailingInput) ?_ ?_ _ ?_
    · intro count
      change 10 * count + 8 < 10 * count + 10
      omega
    · exact fun _ _ _ atFault => atFault
    · exact fun _ _ => Formula.SyntaxError.noConfusion
    · exact fun _ => Formula.scanner.genuine (fun _ _ _ => Formula.scanOne_genuine) (Nat.le_refl _)

end CharacterSheet
