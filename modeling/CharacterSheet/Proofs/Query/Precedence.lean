import CharacterSheet.Proofs.Places
import CharacterSheet.Proofs.Query.Pipe
import CharacterSheet.Proofs.Text.Blank
import Mathlib

/-!
# Precedence of operators

Queries in parentheses can be joined by operators.  The pipe binds most
loosely, then "or", then "and", and all comparisons most tightly, and operators
of one level group to the left.  `Groups` says this without the parser: an
operator on top of a tree has none on its left that binds more loosely, and on
its right only such that bind more tightly.

`parse_joinedText` says that the parser reads every joined text as a tree that
is grouped in this way, and that there is only one.  The tree grows at the
right: `extends_links` keeps that what is read so far is grouped, and that no
operator in it binds more loosely than the one that follows.
-/

namespace CharacterSheet
namespace Query

/-- An operator that joins two queries. -/
inductive Operator where
  | pipe
  | or
  | and
  | compare (relation : Comparison)

namespace Operator

/-- How the operator is written. -/
def symbol : Operator → String
  | pipe => "|"
  | or => "||"
  | and => "&&"
  | compare relation => relation.symbol

/-- How tightly the operator binds, compared with others. -/
def level : Operator → Nat
  | pipe => 0
  | or => 1
  | and => 2
  | compare _ => 3

/-- The query that joins two others. -/
def join : Operator → Expression → Expression → Expression
  | pipe => .pipe
  | or => .or
  | and => .and
  | compare relation => .compare relation

/-- The token of the operator. -/
def token : Operator → Token
  | pipe => .pipe
  | or => .or
  | and => .and
  | compare relation => .compare relation

theorem scan_symbol (operator : Operator) :
    Token.scan operator.symbol.toList = .ok [operator.token] := by
  cases operator with
  | compare relation => cases relation <;> rfl
  | _ => rfl

/-- How strongly the token of an operator binds in the parser. -/
def power (operator : Operator) : Nat :=
  Parser.bindingPower operator.token

/-- The parser goes by the levels. -/
theorem power_lt_power_iff {operator other : Operator} :
    operator.power < other.power ↔ operator.level < other.level := by
  cases operator <;> cases other <;> simp [power, token, level, Parser.bindingPower]

theorem power_le_power_iff {operator other : Operator} :
    operator.power ≤ other.power ↔ operator.level ≤ other.level := by
  rw [← Nat.not_lt, power_lt_power_iff, Nat.not_lt]

theorem power_pos (operator : Operator) : 0 < operator.power := by
  cases operator <;> exact Nat.succ_pos _

/-- An operator extends an operand by what binds more tightly than itself. -/
theorem extension_token (operator : Operator) {total depth : Nat} {left right : Expression}
    {tokens rest : List Token}
    (reads : Parser.expression total depth operator.power tokens = .ok (right, rest)) :
    Parser.extension total (depth + 1) left operator.token tokens =
      .ok (operator.join left right, rest) := by
  cases operator <;>
    · simp only [Parser.extension, token]
      exact bind_eq_ok.mpr ⟨(right, rest), reads, rfl⟩

end Operator

/-- A text that is a query by itself. -/
structure SubQuery where
  text : String
  tree : Expression
  parses : Expression.parse text = .ok tree

/-- Any number of blanks. -/
structure Blanks where
  text : List Char
  blank : ∀ c ∈ text, Text.isBlank c = true

/-- An operator, perhaps with blanks around it, and the query behind it. -/
structure Link where
  before : Blanks
  operator : Operator
  after : Blanks
  operand : SubQuery

/-- The text of a query in parentheses, before more text. -/
def SubQuery.enclosed (query : SubQuery) (more : List Char) : List Char :=
  '(' :: (query.text.toList ++ ')' :: more)

/-- The text of links one after the other. -/
def Link.texts : List Link → List Char
  | [] => []
  | link :: links =>
    link.before.text ++ (link.operator.symbol.toList ++
      (link.after.text ++ link.operand.enclosed (texts links)))

/-- Queries in parentheses that are joined by operators. -/
def joinedText (first : SubQuery) (links : List Link) : String :=
  String.ofList (first.enclosed (Link.texts links))

/-- A tree over joined queries that is grouped by the levels of the operators,
and to the left on one level. -/
inductive Groups : SubQuery → List Link → Expression → Prop
  | single (query : SubQuery) : Groups query [] query.tree
  | join {first : SubQuery} {before after : List Link} {link : Link} {left right : Expression}
      (notLooser : ∀ other ∈ before, link.operator.level ≤ other.operator.level)
      (tighter : ∀ other ∈ after, link.operator.level < other.operator.level)
      (earlier : Groups first before left) (later : Groups link.operand after right) :
      Groups first (before ++ link :: after) (link.operator.join left right)

/-- There is only one such tree. -/
theorem Groups.unique {first : SubQuery} {links : List Link} {tree other : Expression}
    (groups : Groups first links tree) (others : Groups first links other) : tree = other := by
  induction groups generalizing other with
  | single query =>
    generalize empty : ([] : List Link) = links at others
    cases others with
    | single => rfl
    | join => exact absurd empty (by simp)
  | @join first before after link left right notLooser tighter _ _ leftUnique rightUnique =>
    generalize whole : before ++ link :: after = links at others
    cases others with
    | single => exact absurd whole (by simp)
    | join notLooser' tighter' earlier' later' =>
      -- Were the operators on top two different ones, the earlier of them
      -- would bind more loosely than the later and also not.
      rcases split_trichotomy whole with
        ⟨between, rfl, rfl⟩ | ⟨rfl, rfl, rfl⟩ | ⟨between, rfl, rfl⟩
      · exact absurd (tighter _ List.mem_append_cons_self)
          (Nat.not_lt.mpr (notLooser' _ List.mem_append_cons_self))
      · rw [leftUnique earlier', rightUnique later']
      · exact absurd (tighter' _ List.mem_append_cons_self)
          (Nat.not_lt.mpr (notLooser _ List.mem_append_cons_self))

/-! ## Tokens -/

namespace SubQuery

/-- The tokens of a query. -/
def tokens (query : SubQuery) : List Token :=
  match Token.scan query.text.toList with
  | .ok tokens => tokens
  | .error _ => []

theorem tokens_spec (query : SubQuery) :
    Token.scan query.text.toList = .ok query.tokens ∧
      Expression.ofTokens query.tokens = .ok query.tree := by
  rcases bind_eq_ok.mp query.parses with ⟨tokens, scanned, reads⟩
  have same : query.tokens = tokens := by rw [SubQuery.tokens, scanned]
  exact ⟨same ▸ scanned, same ▸ reads⟩

/-- The tokens of a query in parentheses, before more tokens. -/
def enclosedTokens (query : SubQuery) (more : List Token) : List Token :=
  .openingGroup :: (query.tokens ++ .closingGroup :: more)

theorem scan_enclosed (query : SubQuery) {more : List Char} {later : List Token}
    (scanned : Token.scan more = .ok later) :
    Token.scan (query.enclosed more) = .ok (query.enclosedTokens later) := by
  have closing : Token.scan (')' :: more) = .ok (.closingGroup :: later) :=
    Token.scan_token (by decide) rfl scanned
  exact Token.scan_token (by decide) rfl
    (Token.scan_append (by decide) query.tokens_spec.1 closing)

end SubQuery

/-- Blanks before a text are passed. -/
theorem Blanks.scan_append (blanks : Blanks) {more : List Char} {later : List Token}
    (scanned : Token.scan more = .ok later) : Token.scan (blanks.text ++ more) = .ok later := by
  rcases blanks with ⟨text, blank⟩
  induction text with
  | nil => exact scanned
  | cons c rest inductionHypothesis =>
    rw [List.forall_mem_cons] at blank
    exact Token.scan_blank blank.1 (inductionHypothesis blank.2)

/-- A blank sets tokens apart. -/
theorem Token.setsApart_of_isBlank {c : Char} (blank : Text.isBlank c = true) :
    Token.setsApart c = true := by
  have upper := Text.not_between_of_isBlank blank 65 90 (by decide)
  have lower := Text.not_between_of_isBlank blank 97 122 (by decide)
  have digit := Text.not_between_of_isBlank blank 48 57 (by decide)
  have mark : ∀ mark ∈ ['_', '.', '?', ']', '|', '&', '='], c ≠ mark :=
    Text.ne_of_lacking Text.isBlank blank (by decide)
  simp only [List.forall_mem_cons] at mark
  simp [setsApart, isNameChar, isNumberChar, Char.isAlphanum, Char.isAlpha, Char.isUpper,
    Char.isLower, Char.isDigit, UInt32.le_iff_toNat_le, mark]
  omega

namespace Link

/-- The tokens of links one after the other. -/
def tokens : List Link → List Token
  | [] => []
  | link :: links => link.operator.token :: link.operand.enclosedTokens (tokens links)

/-- What is written behind an operator begins with a blank or a parenthesis,
so that the symbol ends there. -/
theorem exists_setsApart (link : Link) (more : List Char) :
    ∃ stop behind, link.after.text ++ link.operand.enclosed more = stop :: behind ∧
      Token.setsApart stop = true := by
  rcases link.after with ⟨text, blank⟩
  cases text with
  | nil => exact ⟨'(', _, rfl, by decide⟩
  | cons c rest =>
    exact ⟨c, _, rfl, Token.setsApart_of_isBlank (blank c List.mem_cons_self)⟩

theorem scan_texts (links : List Link) : Token.scan (texts links) = .ok (tokens links) := by
  induction links with
  | nil => rfl
  | cons link links inductionHypothesis =>
    refine link.before.scan_append ?_
    have behind := link.after.scan_append (link.operand.scan_enclosed inductionHypothesis)
    rcases link.exists_setsApart (texts links) with ⟨stop, more, begins, apart⟩
    rw [begins] at behind ⊢
    exact Token.scan_append apart link.operator.scan_symbol behind

theorem length_tokens_append (links others : List Link) :
    (tokens (links ++ others)).length = (tokens links).length + (tokens others).length := by
  induction links with
  | nil => rw [List.nil_append, tokens, List.length_nil, Nat.zero_add]
  | cons link links inductionHypothesis =>
    simp only [List.cons_append, tokens, SubQuery.enclosedTokens, List.length_cons,
      List.length_append, inductionHypothesis]
    omega

/-- Before links stands nothing that binds more strongly than the first of
their operators. -/
theorem tokens_loose {links : List Link} {power : Nat}
    (bound : ∀ link ∈ links.head?, link.operator.power ≤ power) :
    ∀ token ∈ (tokens links).head?, Parser.bindingPower token ≤ power := by
  cases links with
  | nil => exact fun token first => by cases first
  | cons link links =>
    rintro _ ⟨⟩
    exact bound link rfl

end Link

/-! ## Reading -/

namespace Parser

/-- A query in parentheses is read as an operand. -/
theorem operand_enclosed (query : SubQuery) {total depth : Nat}
    (enough : depthBound query.tokens.length ≤ depth) (rest : List Token) :
    operand total (depth + 1) (query.enclosedTokens rest) = .ok (query.tree, rest) := by
  have stops : Stops 1 (.closingGroup :: rest) :=
    { weak := by rintro _ ⟨⟩; decide
      loose := by rintro _ ⟨⟩; decide }
  rcases expression_append total (Expression.ofTokens_eq_ok.mp query.tokens_spec.2) stops
    (by decide) enough with ⟨lower, room, onwards⟩
  obtain ⟨lower, rfl⟩ : ∃ spare, lower = spare + 1 := by
    refine Nat.exists_eq_add_of_le' ?_
    simp only [depthBound] at enough
    omega
  have loose : ∀ token ∈ (Token.closingGroup :: rest).head?, bindingPower token ≤ 0 := by
    rintro _ ⟨⟩
    decide
  have inner := onwards query.tree (.closingGroup :: rest) (.ends loose)
  simp only [operand, SubQuery.enclosedTokens]
  exact bind_eq_ok.mpr ⟨_, inner, rfl⟩

/-- An operator is followed by its right operand, which is extended by the
links that bind more tightly. -/
theorem extension_link {total depth : Nat} {left right : Expression} {link : Link}
    {links : List Link} {rest : List Token}
    (enough : depthBound link.operand.tokens.length ≤ depth)
    (tightly : Extending total link.operator.power (depth + 1) link.operand.tree
      (Link.tokens links) right rest) :
    extension total (depth + 3) left link.operator.token
        (link.operand.enclosedTokens (Link.tokens links)) =
      .ok (link.operator.join left right, rest) :=
  link.operator.extension_token
    (expression_eq_ok.mpr ⟨_, _, _, rfl, operand_enclosed link.operand enough _, tightly⟩)

/-- A tree that is grouped is extended by the links that bind more strongly
than given, and stays grouped.  No operator in it binds more loosely than the
next one, which may therefore stand on top. -/
theorem extends_links {total : Nat} (depth : Nat) :
    ∀ {power : Nat} {first : SubQuery} {before links : List Link} {left : Expression},
      8 * (Link.tokens links).length < depth → Groups first before left →
      (∀ link ∈ links.head?, ∀ other ∈ before, link.operator.level ≤ other.operator.level) →
      ∃ taken others whole, links = taken ++ others ∧
        (∀ link ∈ taken, power < link.operator.power) ∧
        (∀ link ∈ others.head?, link.operator.power ≤ power) ∧
        Groups first (before ++ taken) whole ∧
        Extending total power depth left (Link.tokens links) whole (Link.tokens others) := by
  induction depth using Nat.strongRecOn with
  | ind depth inductionHypothesis =>
    intro power first before links left room groups ordered
    obtain ⟨deep, rfl⟩ : ∃ deep, depth = deep + 1 :=
      Nat.exists_eq_succ_of_ne_zero (Nat.ne_zero_of_lt room)
    by_cases loose : ∀ link ∈ links.head?, link.operator.power ≤ power
    · refine ⟨[], links, left, rfl, List.forall_mem_nil _, loose, ?_,
        .ends (Link.tokens_loose loose)⟩
      rwa [List.append_nil]
    · cases links with
      | nil => exact absurd (fun link head => by cases head) loose
      | cons link links =>
        have binds : power < link.operator.power := by
          refine Nat.not_le.mp fun weak => loose ?_
          rintro _ ⟨⟩
          exact weak
        have before_le : ∀ other ∈ before, link.operator.level ≤ other.operator.level :=
          ordered link rfl
        simp only [Link.tokens, SubQuery.enclosedTokens, List.length_cons,
          List.length_append] at room
        obtain ⟨lower, rfl⟩ : ∃ lower, deep = lower + 3 :=
          Nat.exists_eq_add_of_le' (by omega)
        have enough : depthBound link.operand.tokens.length ≤ lower := by
          rw [depthBound]
          omega
        -- The right operand takes what binds more tightly than the operator.
        rcases @inductionHypothesis (lower + 1) (by omega) link.operator.power _ _ links _
            (by omega) (.single link.operand) (fun _ _ => List.forall_mem_nil _) with
          ⟨inner, others, right, rfl, inner_gt, others_le, right_groups, reads⟩
        rw [List.nil_append] at right_groups
        have joined : Groups first (before ++ link :: inner) (link.operator.join left right) :=
          .join before_le (fun other member => Operator.power_lt_power_iff.mp
            (inner_gt other member)) groups right_groups
        have joined_ordered : ∀ next ∈ others.head?, ∀ other ∈ before ++ link :: inner,
            next.operator.level ≤ other.operator.level := by
          intro next head other member
          have next_le := Operator.power_le_power_iff.mp (others_le next head)
          rcases List.mem_append.mp member with early | late
          · exact Nat.le_trans next_le (before_le other early)
          rcases List.mem_cons.mp late with rfl | member
          · exact next_le
          · exact Nat.le_trans next_le
              (Operator.power_le_power_iff.mp (Nat.le_of_lt (inner_gt other member)))
        have length_tokens := Link.length_tokens_append inner others
        rcases @inductionHypothesis (lower + 3) (Nat.lt_succ_self _) power _ _ others _
            (by omega) joined joined_ordered with
          ⟨more, remaining, whole, rfl, more_gt, remaining_le, whole_groups, continues⟩
        refine ⟨link :: (inner ++ more), remaining, whole, ?_, ?_, remaining_le, ?_,
          .goesOn binds (extension_link enough reads) continues⟩
        · rw [List.cons_append, List.append_assoc]
        · rintro other (_ | ⟨_, member⟩)
          · exact binds
          rcases List.mem_append.mp member with early | late
          · exact Nat.lt_trans binds (inner_gt other early)
          · exact more_gt other late
        · rwa [List.append_assoc, List.cons_append] at whole_groups

end Parser

namespace Expression

/-- The tokens of joined queries are those of a query that is grouped. -/
theorem ofTokens_joined (first : SubQuery) (links : List Link) :
    ∃ whole, ofTokens (first.enclosedTokens (Link.tokens links)) = .ok whole ∧
      Groups first links whole := by
  simp only [ofTokens_eq_ok]
  generalize totals : (first.enclosedTokens (Link.tokens links)).length = total
  simp only [SubQuery.enclosedTokens, List.length_cons, List.length_append] at totals
  obtain ⟨depth, deep⟩ : ∃ depth, Parser.depthBound total = depth + 2 :=
    Nat.exists_eq_add_of_le' (Nat.le_add_left 2 (8 * total + 6))
  have enough : Parser.depthBound first.tokens.length ≤ depth := by
    rw [Parser.depthBound] at deep ⊢
    omega
  have room : 8 * (Link.tokens links).length < depth + 1 := by
    rw [Parser.depthBound] at deep
    omega
  rcases @Parser.extends_links total (depth + 1) 0 _ _ _ _ room (.single first)
      (fun _ _ => List.forall_mem_nil _) with
    ⟨taken, others, whole, rfl, -, others_le, groups, run⟩
  -- Every operator binds, so none is left.
  obtain rfl : others = [] := by
    cases others with
    | nil => rfl
    | cons link others =>
      exact absurd (others_le link rfl) (Nat.not_le.mpr link.operator.power_pos)
  rw [List.nil_append] at groups
  rw [List.append_nil] at run ⊢
  refine ⟨whole, ?_, groups⟩
  rw [deep]
  exact Parser.expression_eq_ok.mpr ⟨_, _, _, rfl, Parser.operand_enclosed first enough _, run⟩

/-- Queries in parentheses that are joined by operators are a query.  Its tree
is the one that is grouped by the levels of the operators. -/
theorem parse_joinedText (first : SubQuery) (links : List Link) :
    ∃ whole, parse (joinedText first links) = .ok whole ∧
      ∀ tree, Groups first links tree ↔ tree = whole := by
  rcases ofTokens_joined first links with ⟨whole, read, groups⟩
  have scanned : Token.scan (joinedText first links).toList =
      .ok (first.enclosedTokens (Link.tokens links)) := by
    rw [joinedText, String.toList_ofList]
    exact first.scan_enclosed (Link.scan_texts links)
  exact ⟨whole, bind_eq_ok.mpr ⟨_, scanned, read⟩, fun tree =>
    ⟨fun tree_groups => tree_groups.unique groups, fun same => same ▸ groups⟩⟩

example :
    parse "(a) | (b) || (c) && (d) < (e) == (f) || (g)" =
      .ok (.pipe (.field "a")
        (.or
          (.or (.field "b")
            (.and (.field "c")
              (.compare .equal (.compare .less (.field "d") (.field "e")) (.field "f"))))
          (.field "g"))) := by
  with_unfolding_all rfl

end Expression

end Query
end CharacterSheet
