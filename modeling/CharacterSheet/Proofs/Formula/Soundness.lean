import CharacterSheet.Proofs.Except
import CharacterSheet.Proofs.Formula.Grammar

/-!
# What the parser reads is derived

Whatever the parser reads from the front of some tokens is spelled by the
tokens it passes, according to the grammar.  `Sound depth` says this of all
functions of the parser at one bound on the nesting of calls.  Each function
calls others with a smaller bound only, so `sound` is an induction on the
bound with one lemma for each function.
-/

namespace CharacterSheet
namespace Formula
namespace Grammar

open CharacterSheet.Formula.Parser (Level WithRest)

/-- A token is passed if it is the one expected. -/
theorem expect_eq_ok {expected : Token} {problem : SyntaxError} {tokens rest : List Token} :
    Parser.expect expected problem tokens = .ok rest ↔ tokens = expected :: rest := by
  cases tokens with
  | nil => simp [Parser.expect]
  | cons token behind =>
    by_cases same : token = expected
    · simp [Parser.expect, same]
    · simp [Parser.expect, same]

/-- The tokens that were passed spell the expression that was read. -/
def Reads (phrase : Phrase) (tokens : List Token) (read : WithRest Expression) : Prop :=
  ∃ front, tokens = front ++ read.2 ∧ Derives phrase front read.1

/-- A phrase of one kind that is passed may count as a phrase of another. -/
theorem Reads.imp {first second : Phrase} {tokens : List Token} {read : WithRest Expression}
    (counts : ∀ front, Derives first front read.1 → Derives second front read.1)
    (reads : Reads first tokens read) : Reads second tokens read := by
  rcases reads with ⟨front, split, derivation⟩
  exact ⟨front, split, counts front derivation⟩

/-- What is read within a bound on the nesting of calls is derived. -/
structure Sound (depth : Nat) : Prop where
  joined : ∀ {level : Level} {tokens : List Token} {read : WithRest Expression},
    Parser.joined level depth tokens = .ok read → Reads (.joined level) tokens read
  moreOperands : ∀ {level : Level} {before : List Token} {left : Expression}
    {tokens : List Token} {read : WithRest Expression},
    Parser.moreOperands level depth left tokens = .ok read →
    Derives (.joined level) before left → Reads (.joined level) (before ++ tokens) read
  operand : ∀ {level : Level} {tokens : List Token} {read : WithRest Expression},
    Parser.operand level depth tokens = .ok read → Reads (.operands level) tokens read
  signed : ∀ {tokens : List Token} {read : WithRest Expression},
    Parser.signed depth tokens = .ok read → Reads .signed tokens read
  power : ∀ {tokens : List Token} {read : WithRest Expression},
    Parser.power depth tokens = .ok read → Reads .power tokens read
  atom : ∀ {tokens : List Token} {read : WithRest Expression},
    Parser.atom depth tokens = .ok read → Reads .atom tokens read
  commaSeparated : ∀ {tokens : List Token} {read : WithRest (List Expression)},
    Parser.commaSeparated depth tokens = .ok read →
    ∃ arguments : List (List Token × Expression),
      tokens = separated (arguments.map Prod.fst) ++ read.2 ∧
        read.1 = arguments.map Prod.snd ∧ arguments ≠ [] ∧
        ∀ argument ∈ arguments, Derives .comparison argument.1 argument.2

namespace Sound

variable {depth : Nat} {level : Level} {tokens : List Token} {read : WithRest Expression}

theorem joined_step (sound : Sound depth)
    (succeeds : Parser.joined level (depth + 1) tokens = .ok read) :
    Reads (.joined level) tokens read := by
  rw [Parser.joined, bind_eq_ok] at succeeds
  rcases succeeds with ⟨⟨left, rest⟩, first, more⟩
  rcases sound.operand first with ⟨front, split, derivation⟩
  rw [split]
  exact sound.moreOperands more (.operand derivation)

theorem moreOperands_step (sound : Sound depth) {before : List Token} {left : Expression}
    (succeeds : Parser.moreOperands level (depth + 1) left tokens = .ok read)
    (earlier : Derives (.joined level) before left) :
    Reads (.joined level) (before ++ tokens) read := by
  cases tokens with
  | nil =>
    rw [Parser.moreOperands] at succeeds
    cases succeeds
    exact ⟨before, rfl, earlier⟩
  | cons token rest =>
    rw [Parser.moreOperands] at succeeds
    cases found : level.operation? token with
    | none =>
      rw [found] at succeeds
      cases succeeds
      exact ⟨before, rfl, earlier⟩
    | some operation =>
      rw [found] at succeeds
      rcases bind_eq_ok.mp succeeds with ⟨⟨right, behind⟩, next, more⟩
      rcases sound.operand next with ⟨front, split, derivation⟩
      have joins := Derives.join (joins_iff.mpr found) earlier derivation
      have whole : before ++ token :: rest = (before ++ token :: front) ++ behind := by
        rw [split, List.append_assoc, List.cons_append]
      rw [whole]
      exact sound.moreOperands more joins

theorem operand_step (sound : Sound depth)
    (succeeds : Parser.operand level (depth + 1) tokens = .ok read) :
    Reads (.operands level) tokens read := by
  cases level with
  | comparison => exact sound.joined (by simpa only [Parser.operand] using succeeds)
  | sum => exact sound.joined (by simpa only [Parser.operand] using succeeds)
  | product => exact sound.signed (by simpa only [Parser.operand] using succeeds)

theorem signed_step (sound : Sound depth)
    (succeeds : Parser.signed (depth + 1) tokens = .ok read) : Reads .signed tokens read := by
  unfold Parser.signed at succeeds
  split at succeeds
  · rcases bind_eq_ok.mp succeeds with ⟨⟨operand, behind⟩, inner, result⟩
    cases result
    rcases sound.signed inner with ⟨front, split, derivation⟩
    exact ⟨.minus :: front, by rw [split]; rfl, .negated derivation⟩
  · rcases sound.signed succeeds with ⟨front, split, derivation⟩
    exact ⟨.plus :: front, by rw [split]; rfl, .affirmed derivation⟩
  · exact (sound.power succeeds).imp fun _ => .unsigned

theorem power_step (sound : Sound depth)
    (succeeds : Parser.power (depth + 1) tokens = .ok read) : Reads .power tokens read := by
  rw [Parser.power, bind_eq_ok] at succeeds
  rcases succeeds with ⟨⟨base, rest⟩, lower, result⟩
  rcases sound.atom lower with ⟨before, baseSplit, baseDerivation⟩
  dsimp only at result baseSplit
  split at result
  · rcases bind_eq_ok.mp result with ⟨⟨exponent, behind⟩, upper, result⟩
    cases result
    rcases sound.signed upper with ⟨after, split, derivation⟩
    refine ⟨before ++ .power :: after, ?_, .raised baseDerivation derivation⟩
    rw [baseSplit, split, List.append_assoc, List.cons_append]
  · cases result
    exact ⟨before, baseSplit, .plain baseDerivation⟩

/-- A call is derived: its name is that of a function, and its arguments are
as many as the function takes. -/
theorem call_step (sound : Sound depth) {name : String} {function : Builtin}
    (found : Builtin.ofName? name = some function)
    (succeeds : (do
      let rest ← Parser.expect .opening .missingArguments tokens
      let (arguments, rest) ← Parser.commaSeparated depth rest
      let rest ← Parser.expect .closing .unclosedArguments rest
      if function.accepts arguments.length then return (Expression.call function arguments, rest)
      else .error (.argumentCount name)) = .ok read) :
    Reads .atom (.name name :: tokens) read := by
  rcases bind_eq_ok.mp succeeds with ⟨inside, opens, succeeds⟩
  rcases bind_eq_ok.mp succeeds with ⟨⟨arguments, behind⟩, commas, succeeds⟩
  rcases bind_eq_ok.mp succeeds with ⟨rest, closes, result⟩
  rw [expect_eq_ok] at opens closes
  rcases sound.commaSeparated commas with ⟨parts, split, spelled, _, each⟩
  dsimp only at closes split spelled result
  split at result
  · rename_i accepted
    cases result
    rw [spelled, List.length_map, accepts_iff] at accepted
    refine ⟨.name function.name :: .opening :: separated (parts.map Prod.fst) ++ [.closing],
      ?_, spelled ▸ Derives.call accepted each⟩
    rw [opens, split, closes, ofName?_eq_some_iff.mp found]
    simp
  · cases result

theorem atom_step (sound : Sound depth)
    (succeeds : Parser.atom (depth + 1) tokens = .ok read) : Reads .atom tokens read := by
  cases tokens with
  | nil =>
    rw [Parser.atom] at succeeds
    cases succeeds
  | cons token rest =>
    unfold Parser.atom at succeeds
    split at succeeds
    · cases succeeds
      exact ⟨[_], rfl, .number _⟩
    · cases succeeds
      exact ⟨[_], rfl, .reference _⟩
    · rcases bind_eq_ok.mp succeeds with ⟨⟨inner, behind⟩, inside, succeeds⟩
      rcases bind_eq_ok.mp succeeds with ⟨after, closes, result⟩
      cases result
      rcases sound.joined inside with ⟨front, split, derivation⟩
      rw [expect_eq_ok] at closes
      refine ⟨.opening :: front ++ [.closing], ?_, .group derivation⟩
      rw [split, closes]
      simp
    · split at succeeds
      · cases succeeds
      · rename_i found
        exact sound.call_step found succeeds
    · cases succeeds

theorem commaSeparated_step (sound : Sound depth) {arguments : WithRest (List Expression)}
    (succeeds : Parser.commaSeparated (depth + 1) tokens = .ok arguments) :
    ∃ parts : List (List Token × Expression),
      tokens = separated (parts.map Prod.fst) ++ arguments.2 ∧
        arguments.1 = parts.map Prod.snd ∧ parts ≠ [] ∧
        ∀ part ∈ parts, Derives .comparison part.1 part.2 := by
  rw [Parser.commaSeparated, bind_eq_ok] at succeeds
  rcases succeeds with ⟨⟨first, rest⟩, head, result⟩
  rcases sound.joined head with ⟨front, split, derivation⟩
  dsimp only at result split
  split at result
  · rcases bind_eq_ok.mp result with ⟨⟨more, behind⟩, tail, result⟩
    cases result
    rcases sound.commaSeparated tail with ⟨parts, spelled, trees, some, each⟩
    rcases List.exists_cons_of_ne_nil some with ⟨next, others, rfl⟩
    refine ⟨(front, first) :: next :: others, ?_, ?_, List.cons_ne_nil _ _, ?_⟩
    · rw [split, spelled]
      simp [separated]
    · simp only at trees
      rw [trees]
      rfl
    · intro part member
      rcases List.mem_cons.mp member with same | later
      · exact same ▸ derivation
      · exact each part later
  · cases result
    refine ⟨[(front, first)], split, rfl, List.cons_ne_nil _ _, ?_⟩
    intro part member
    exact List.mem_singleton.mp member ▸ derivation

end Sound

/-- Every function of the parser is sound at every bound. -/
theorem sound (depth : Nat) : Sound depth := by
  induction depth with
  | zero =>
    exact
      { joined := fun succeeds => by cases succeeds
        moreOperands := fun succeeds => by cases succeeds
        operand := fun succeeds => by cases succeeds
        signed := fun succeeds => by cases succeeds
        power := fun succeeds => by cases succeeds
        atom := fun succeeds => by cases succeeds
        commaSeparated := fun succeeds => by cases succeeds }
  | succ depth inductionHypothesis =>
    exact
      { joined := inductionHypothesis.joined_step
        moreOperands := inductionHypothesis.moreOperands_step
        operand := inductionHypothesis.operand_step
        signed := inductionHypothesis.signed_step
        power := inductionHypothesis.power_step
        atom := inductionHypothesis.atom_step
        commaSeparated := inductionHypothesis.commaSeparated_step }

/-- Tokens that are read as a whole spell the expression they are read as. -/
theorem derives_of_ofTokens {tokens : List Token} {expression : Expression}
    (succeeds : Expression.ofTokens tokens = .ok expression) :
    Derives .comparison tokens expression := by
  rcases bind_eq_ok.mp succeeds with ⟨⟨whole, rest⟩, reading, result⟩
  rcases (sound _).joined reading with ⟨front, split, derivation⟩
  dsimp only at result split derivation
  split at result
  · rename_i empty
    cases result
    rw [split, List.isEmpty_iff.mp empty, List.append_nil]
    exact derivation
  · cases result

end Grammar
end Formula
end CharacterSheet
