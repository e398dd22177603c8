import CharacterSheet.Proofs.Formula.Soundness

/-!
# What is derived is read

Tokens that spell a phrase are read as that phrase wherever they stand, as
long as the token behind them does not continue the phrase and the bound on
the nesting of calls is large enough.

A level that joins operands needs a statement of its own, because its tokens
may be followed by more operators of the level.  Reading them comes down to
reading what follows, with the joined expression as the left operand.
`Completes` puts both forms together; `Derives.completes` is an induction on
the derivation with one lemma for each rule.
-/

namespace CharacterSheet
namespace Formula
namespace Grammar

open CharacterSheet.Formula.Parser (Level WithRest)

/-- How tightly a token binds the operand before it; zero if it cannot follow
an operand within a phrase. -/
def strength : Token → Nat
  | .compare _ => 1
  | .plus | .minus => 2
  | .times | .divide | .modulo => 3
  | .power => 4
  | _ => 0

namespace Phrase

/-- How tightly a token has to bind in order to continue the phrase. -/
def grip : Phrase → Nat
  | .joined .comparison => 1
  | .joined .sum => 2
  | .joined .product => 3
  | .signed | .power => 4
  | .atom => 5

/-- The number of calls that lead from the phrase to its first token. -/
def calls : Phrase → Nat
  | .joined .comparison => 9
  | .joined .sum => 7
  | .joined .product => 5
  | .signed => 3
  | .power => 2
  | .atom => 1

/-- Read the phrase from the front of some tokens. -/
def read : Phrase → Nat → List Token → Except SyntaxError (WithRest Expression)
  | .joined level => Parser.joined level
  | .signed => Parser.signed
  | .power => Parser.power
  | .atom => Parser.atom

theorem grip_joined_lt (level : Level) : grip (.joined level) < grip (operands level) := by
  cases level <;> decide

theorem calls_operands (level : Level) : calls (operands level) + 2 = calls (.joined level) := by
  cases level <;> rfl

end Phrase

/-- The first of some tokens does not continue a phrase. -/
def Closes (phrase : Phrase) (rest : List Token) : Prop :=
  ∀ token ∈ rest.head?, strength token < phrase.grip

theorem closes_nil (phrase : Phrase) : Closes phrase [] := by
  intro token first
  cases first

theorem closes_cons {phrase : Phrase} {token : Token} {rest : List Token} :
    Closes phrase (token :: rest) ↔ strength token < phrase.grip := by
  simp [Closes]

/-- No token continues an atom. -/
theorem closes_atom (rest : List Token) : Closes .atom rest := by
  intro token _
  cases token <;> simp [strength, Phrase.grip]

/-- What does not continue a looser phrase does not continue a tighter one. -/
theorem Closes.mono {looser tighter : Phrase} {rest : List Token}
    (ordered : looser.grip ≤ tighter.grip) (closes : Closes looser rest) :
    Closes tighter rest := by
  intro token first
  exact Nat.lt_of_lt_of_le (closes token first) ordered

theorem operation?_of_strength_lt {level : Level} {token : Token}
    (weak : strength token < Phrase.grip (.joined level)) : level.operation? token = none := by
  cases level <;> cases token <;>
    first
      | rfl
      | exact absurd weak (by simp [strength, Phrase.grip])

/-- An operator of a level does not continue the operands of the level. -/
theorem Joins.closes {level : Level} {token : Token} {operation : Operation}
    (joins : Joins level token operation) (rest : List Token) :
    Closes (.operands level) (token :: rest) := by
  rw [closes_cons]
  cases joins <;> simp [strength, Phrase.grip, Phrase.operands]

/-- The tokens are read as the phrase, given enough calls for their number.
At a level that joins operands, reading the tokens leaves the operators of the
level that may follow, and enough calls to read on. -/
def Completes : Phrase → List Token → Expression → Prop
  | .joined level, tokens, expression =>
    ∀ (rest : List Token) (depth : Nat), Closes (.operands level) rest →
      10 * tokens.length + Phrase.calls (.joined level) ≤ depth →
      ∃ remaining, depth ≤ remaining + tokens.length + 1 ∧
        Parser.joined level depth (tokens ++ rest) =
          Parser.moreOperands level remaining expression rest
  | phrase, tokens, expression =>
    ∀ (rest : List Token) (depth : Nat), Closes phrase rest →
      10 * tokens.length + phrase.calls ≤ depth →
      phrase.read depth (tokens ++ rest) = .ok (expression, rest)

/-- Where no operator follows, the left operand is all there is. -/
theorem moreOperands_of_closes {level : Level} {depth : Nat} {left : Expression}
    {rest : List Token} (positive : 0 < depth) (closes : Closes (.joined level) rest) :
    Parser.moreOperands level depth left rest = .ok (left, rest) := by
  rcases Nat.exists_eq_add_of_lt positive with ⟨smaller, rfl⟩
  rw [Nat.zero_add]
  cases rest with
  | nil => rw [Parser.moreOperands]
  | cons token behind =>
    have none := operation?_of_strength_lt (closes_cons.mp closes)
    rw [Parser.moreOperands, none]

namespace Completes

variable {phrase : Phrase} {level : Level} {tokens rest : List Token} {expression : Expression}
  {depth : Nat}

/-- Tokens that no operator continues are read as the phrase. -/
theorem read_append (completes : Completes phrase tokens expression)
    (closes : Closes phrase rest) (enough : 10 * tokens.length + phrase.calls ≤ depth) :
    phrase.read depth (tokens ++ rest) = .ok (expression, rest) := by
  cases phrase with
  | joined level =>
    have inside := closes.mono (Nat.le_of_lt (Phrase.grip_joined_lt level))
    rcases completes rest depth inside enough with ⟨remaining, bound, reading⟩
    have calls := Phrase.calls_operands level
    have positive : 0 < remaining := by omega
    exact reading.trans (moreOperands_of_closes positive closes)
  | signed => exact completes rest depth closes enough
  | power => exact completes rest depth closes enough
  | atom => exact completes rest depth closes enough

theorem operand_append (completes : Completes (.operands level) tokens expression)
    (closes : Closes (.operands level) rest)
    (enough : 10 * tokens.length + Phrase.calls (.operands level) < depth) :
    Parser.operand level depth (tokens ++ rest) = .ok (expression, rest) := by
  rcases Nat.exists_eq_add_of_lt (Nat.lt_of_le_of_lt (Nat.zero_le _) enough) with ⟨smaller, rfl⟩
  rw [Nat.zero_add] at enough ⊢
  have reading := completes.read_append closes (Nat.le_of_lt_succ enough)
  cases level <;> exact reading

theorem operand (completes : Completes (.operands level) tokens expression) :
    Completes (.joined level) tokens expression := by
  intro rest depth closes enough
  have calls := Phrase.calls_operands level
  obtain ⟨smaller, rfl⟩ : ∃ smaller, depth = smaller + 1 := ⟨depth - 1, by omega⟩
  have first : Parser.operand level smaller (tokens ++ rest) = .ok (expression, rest) :=
    completes.operand_append closes (by omega)
  refine ⟨smaller, by omega, ?_⟩
  rw [Parser.joined, first]
  rfl

theorem join {token : Token} {operation : Operation} {before after : List Token}
    {left right : Expression} (joins : Joins level token operation)
    (earlier : Completes (.joined level) before left)
    (last : Completes (.operands level) after right) :
    Completes (.joined level) (before ++ token :: after) (.binary operation left right) := by
  intro rest depth closes enough
  rw [List.length_append, List.length_cons] at enough ⊢
  have calls := Phrase.calls_operands level
  rcases earlier (token :: (after ++ rest)) depth (joins.closes _) (by omega) with
    ⟨remaining, bound, reading⟩
  obtain ⟨smaller, rfl⟩ : ∃ smaller, remaining = smaller + 1 := ⟨remaining - 1, by omega⟩
  have next : Parser.operand level smaller (after ++ rest) = .ok (right, rest) :=
    last.operand_append closes (by omega)
  refine ⟨smaller, by omega, ?_⟩
  rw [List.append_assoc, List.cons_append, reading, Parser.moreOperands, joins_iff.mp joins]
  dsimp only
  rw [next]
  rfl

theorem negated (inner : Completes .signed tokens expression) :
    Completes .signed (.minus :: tokens) (.negate expression) := by
  intro rest depth closes enough
  rw [List.length_cons] at enough
  obtain ⟨smaller, rfl⟩ : ∃ smaller, depth = smaller + 1 := ⟨depth - 1, by omega⟩
  have reading : Parser.signed smaller (tokens ++ rest) = .ok (expression, rest) :=
    inner rest smaller closes (by omega)
  rw [Phrase.read, List.cons_append]
  unfold Parser.signed
  dsimp only
  rw [reading]
  rfl

theorem affirmed (inner : Completes .signed tokens expression) :
    Completes .signed (.plus :: tokens) expression := by
  intro rest depth closes enough
  rw [List.length_cons] at enough
  obtain ⟨smaller, rfl⟩ : ∃ smaller, depth = smaller + 1 := ⟨depth - 1, by omega⟩
  rw [Phrase.read, List.cons_append]
  unfold Parser.signed
  exact inner rest smaller closes (by omega)

/-- A signed term that begins with no sign is a power. -/
theorem unsigned {token : Token} (noMinus : token ≠ .minus) (noPlus : token ≠ .plus)
    (inner : Completes .power (token :: tokens) expression) :
    Completes .signed (token :: tokens) expression := by
  intro rest depth closes enough
  simp only [Phrase.calls] at enough
  obtain ⟨smaller, rfl⟩ : ∃ smaller, depth = smaller + 1 := ⟨depth - 1, by omega⟩
  have reading : Parser.power smaller (token :: tokens ++ rest) = .ok (expression, rest) :=
    inner rest smaller closes (by simp only [Phrase.calls]; omega)
  rw [Phrase.read]
  unfold Parser.signed
  split
  · rename_i same
    exact absurd (List.cons.inj same).1 noMinus
  · rename_i same
    exact absurd (List.cons.inj same).1 noPlus
  · exact reading

theorem raised {before after : List Token} {base exponent : Expression}
    (lower : Completes .atom before base) (upper : Completes .signed after exponent) :
    Completes .power (before ++ .power :: after) (.binary .power base exponent) := by
  intro rest depth closes enough
  rw [List.length_append, List.length_cons] at enough
  simp only [Phrase.calls] at enough
  obtain ⟨smaller, rfl⟩ : ∃ smaller, depth = smaller + 1 := ⟨depth - 1, by omega⟩
  have first : Parser.atom smaller (before ++ .power :: (after ++ rest)) =
      .ok (base, .power :: (after ++ rest)) :=
    lower _ smaller (closes_atom _) (by simp only [Phrase.calls]; omega)
  have second : Parser.signed smaller (after ++ rest) = .ok (exponent, rest) :=
    upper rest smaller closes (by simp only [Phrase.calls]; omega)
  rw [Phrase.read, List.append_assoc, List.cons_append, Parser.power, first]
  dsimp only [bind, Except.bind]
  rw [second]
  rfl

theorem plain (inner : Completes .atom tokens expression) :
    Completes .power tokens expression := by
  intro rest depth closes enough
  simp only [Phrase.calls] at enough
  obtain ⟨smaller, rfl⟩ : ∃ smaller, depth = smaller + 1 := ⟨depth - 1, by omega⟩
  have first : Parser.atom smaller (tokens ++ rest) = .ok (expression, rest) :=
    inner rest smaller (closes_atom rest) (by simp only [Phrase.calls]; omega)
  rw [Phrase.read, Parser.power, first]
  dsimp only [bind, Except.bind]
  split
  · exact absurd (closes_cons.mp closes) (by simp [strength, Phrase.grip])
  · rfl

theorem number (value : Float) : Completes .atom [.number value] (.number value) := by
  intro rest depth closes enough
  obtain ⟨smaller, rfl⟩ : ∃ smaller, depth = smaller + 1 :=
    ⟨depth - 1, by simp only [Phrase.calls] at enough; omega⟩
  rfl

theorem reference (key : String) : Completes .atom [.reference key] (.reference key) := by
  intro rest depth closes enough
  obtain ⟨smaller, rfl⟩ : ∃ smaller, depth = smaller + 1 :=
    ⟨depth - 1, by simp only [Phrase.calls] at enough; omega⟩
  rfl

theorem group (inner : Completes .comparison tokens expression) :
    Completes .atom (.opening :: tokens ++ [.closing]) expression := by
  intro rest depth closes enough
  simp only [List.cons_append, List.length_cons, List.length_append, List.length_nil,
    Phrase.calls] at enough
  obtain ⟨smaller, rfl⟩ : ∃ smaller, depth = smaller + 1 := ⟨depth - 1, by omega⟩
  have reading : Parser.joined .comparison smaller (tokens ++ .closing :: rest) =
      .ok (expression, .closing :: rest) :=
    inner.read_append (by simp [closes_cons, strength, Phrase.grip])
      (by simp only [Phrase.calls]; omega)
  rw [Phrase.read, List.append_assoc, List.cons_append, List.singleton_append]
  unfold Parser.atom
  dsimp only
  rw [reading]
  rfl

/-- Arguments are read one after the other up to the closing parenthesis. -/
theorem commaSeparated_append {arguments : List (List Token × Expression)}
    (some : arguments ≠ [])
    (each : ∀ argument ∈ arguments, Completes .comparison argument.1 argument.2)
    (enough : 10 * (separated (arguments.map Prod.fst)).length + 10 ≤ depth) :
    Parser.commaSeparated depth (separated (arguments.map Prod.fst) ++ Token.closing :: rest) =
      .ok (arguments.map Prod.snd, .closing :: rest) := by
  induction arguments generalizing depth with
  | nil => exact absurd rfl some
  | cons first others inductionHypothesis =>
    obtain ⟨smaller, rfl⟩ : ∃ smaller, depth = smaller + 1 := ⟨depth - 1, by omega⟩
    have head := each first List.mem_cons_self
    cases others with
    | nil =>
      have reading : Parser.joined .comparison smaller (first.1 ++ .closing :: rest) =
          .ok (first.2, .closing :: rest) :=
        head.read_append (by simp [closes_cons, strength, Phrase.grip])
          (by simp only [List.map_cons, List.map_nil, separated] at enough
              simp only [Phrase.calls]
              omega)
      rw [List.map_cons, List.map_nil, separated, Parser.commaSeparated, reading]
      rfl
    | cons next others =>
      have shape : separated ((first :: next :: others).map Prod.fst) =
          first.1 ++ .comma :: separated ((next :: others).map Prod.fst) := rfl
      rw [shape, List.length_append, List.length_cons] at enough
      have laterEach := fun argument later => each argument (List.mem_cons_of_mem _ later)
      have tail : Parser.commaSeparated smaller
          (separated ((next :: others).map Prod.fst) ++ .closing :: rest) =
          .ok ((next :: others).map Prod.snd, .closing :: rest) :=
        inductionHypothesis (List.cons_ne_nil _ _) laterEach (by omega)
      have reading : Parser.joined .comparison smaller
          (first.1 ++ .comma ::
            (separated ((next :: others).map Prod.fst) ++ .closing :: rest)) =
          .ok (first.2, .comma ::
            (separated ((next :: others).map Prod.fst) ++ .closing :: rest)) :=
        head.read_append (by simp [closes_cons, strength, Phrase.grip])
          (by simp only [Phrase.calls]; omega)
      rw [shape, List.append_assoc, List.cons_append, Parser.commaSeparated, reading]
      dsimp only [bind, Except.bind]
      rw [tail]
      rfl

theorem call {function : Builtin} {arguments : List (List Token × Expression)}
    (arity : Arity function arguments.length)
    (each : ∀ argument ∈ arguments, Completes .comparison argument.1 argument.2) :
    Completes .atom
      (.name function.name :: .opening :: separated (arguments.map Prod.fst) ++ [.closing])
      (.call function (arguments.map Prod.snd)) := by
  intro rest depth closes enough
  simp only [List.cons_append, List.length_cons, List.length_append, List.length_nil,
    Phrase.calls] at enough
  obtain ⟨smaller, rfl⟩ : ∃ smaller, depth = smaller + 1 := ⟨depth - 1, by omega⟩
  have some : arguments ≠ [] := by
    intro none
    subst none
    cases function <;> simp [Arity] at arity
  have reading : Parser.commaSeparated smaller
      (separated (arguments.map Prod.fst) ++ .closing :: rest) =
      .ok (arguments.map Prod.snd, .closing :: rest) :=
    commaSeparated_append some each (by omega)
  have accepted : function.accepts (arguments.map Prod.snd).length = true := by
    rw [List.length_map]
    exact accepts_iff.mpr arity
  rw [Phrase.read, List.cons_append, List.cons_append, List.append_assoc, List.cons_append,
    List.singleton_append]
  unfold Parser.atom
  dsimp only
  rw [ofName?_eq_some_iff.mpr rfl]
  rw [expect_eq_ok.mpr rfl]
  dsimp only [bind, Except.bind]
  rw [reading]
  dsimp only
  rw [expect_eq_ok.mpr rfl]
  dsimp only
  rw [if_pos accepted]
  rfl

end Completes

/-- An atom begins with no sign. -/
theorem Derives.atom_head {tokens : List Token} {expression : Expression}
    (derivation : Derives .atom tokens expression) :
    ∃ token behind, tokens = token :: behind ∧ token ≠ .minus ∧ token ≠ .plus := by
  cases derivation <;> exact ⟨_, _, rfl, by simp, by simp⟩

/-- A power begins with no sign. -/
theorem Derives.power_head {tokens : List Token} {expression : Expression}
    (derivation : Derives .power tokens expression) :
    ∃ token behind, tokens = token :: behind ∧ token ≠ .minus ∧ token ≠ .plus := by
  cases derivation with
  | plain inner => exact inner.atom_head
  | raised lower upper =>
    rcases lower.atom_head with ⟨token, behind, rfl, unsigned⟩
    exact ⟨token, _, List.cons_append, unsigned⟩

/-- Derived tokens are read as the phrase they spell. -/
theorem Derives.completes {phrase : Phrase} {tokens : List Token} {expression : Expression}
    (derivation : Derives phrase tokens expression) : Completes phrase tokens expression := by
  induction derivation with
  | operand _ only => exact only.operand
  | join joins _ _ earlier last => exact .join joins earlier last
  | negated _ inner => exact inner.negated
  | affirmed _ inner => exact inner.affirmed
  | unsigned derivation inner =>
    rcases derivation.power_head with ⟨token, behind, rfl, noMinus, noPlus⟩
    exact inner.unsigned noMinus noPlus
  | raised _ _ lower upper => exact .raised lower upper
  | plain _ inner => exact inner.plain
  | number value => exact .number value
  | reference key => exact .reference key
  | group _ inner => exact inner.group
  | call arity _ each => exact .call arity each

end Grammar
end Formula
end CharacterSheet
