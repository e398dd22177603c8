import CharacterSheet.Proofs.Query.Pipe

/-!
# Quoting

Any text can be put between quotes: a backslash before each quote and before
each backslash makes them stand for themselves.  Between single quotes the text
is what the query finds in everything, and between double quotes it is the name
of the member that the query finds.

Scanning undoes the backslashes one character at a time, so that
`readQuoted?_escaped` is an induction on the text with whatever has been read
before it.
-/

namespace CharacterSheet
namespace Query

/-- A text with a backslash before each backslash and each quote. -/
def escaped (quote : Char) (text : List Char) : List Char :=
  text.flatMap fun c => if c = '\\' ∨ c = quote then ['\\', c] else [c]

/-- The query that consists of a text between quotes. -/
def quotedText (quote : Char) (text : String) : String :=
  String.ofList (quote :: (escaped quote text.toList ++ [quote]))

/-- The text is read as it was before it was escaped. -/
theorem readQuoted?_escaped {quote : Char} (isQuote : quote ≠ '\\') (seen text more : List Char) :
    Token.readQuoted? quote seen (escaped quote text ++ quote :: more) =
      some (seen.reverse ++ text, more) := by
  induction text generalizing seen with
  | nil =>
    rw [escaped, List.flatMap_nil, List.nil_append, Token.readQuoted?_cons isQuote, if_pos rfl,
      List.append_nil]
  | cons c text inductionHypothesis =>
    have onwards := inductionHypothesis (c :: seen)
    rw [List.reverse_cons, List.append_assoc, List.singleton_append, escaped] at onwards
    rw [escaped, List.flatMap_cons]
    by_cases marked : c = '\\' ∨ c = quote
    · rw [if_pos marked, List.append_assoc, List.cons_append, List.singleton_append,
        Token.readQuoted?, onwards]
    · rw [not_or] at marked
      rw [if_neg (not_or.mpr marked), List.append_assoc, List.singleton_append,
        Token.readQuoted?_cons marked.1, if_neg marked.2, onwards]

/-- The token of a quoted text is the only one. -/
theorem scan_quotedText {quote : Char} (isQuote : quote = '"' ∨ quote = '\'') (text : String) :
    Token.scan (quotedText quote text).toList =
      (Token.ofQuoted quote text.toList).map fun token => [token] := by
  have noEscape : quote ≠ '\\' := by
    rcases isQuote with rfl | rfl <;> decide
  have closed := readQuoted?_escaped noEscape [] text.toList []
  rw [List.reverse_nil, List.nil_append] at closed
  rw [quotedText, String.toList_ofList]
  exact Token.scan_quoted (isQuote.imp_right Or.inl) closed

theorem parse_singleQuoted (text : String) :
    Expression.parse (quotedText '\'' text) = .ok (.literal (.str text)) := by
  rw [Expression.parse, scan_quotedText (Or.inr rfl)]
  refine bind_eq_ok.mpr ⟨[.text text], ?_, Expression.ofTokens_single ?_⟩
  · simp [Token.ofQuoted, Except.map]
  · rw [Parser.operand]

theorem parse_doubleQuoted (text : String) :
    Expression.parse (quotedText '"' text) = .ok (.field text) := by
  rw [Expression.parse, scan_quotedText (Or.inl rfl)]
  refine bind_eq_ok.mpr ⟨[.quotedName text], ?_, Expression.ofTokens_single ?_⟩
  · simp [Token.ofQuoted, Except.map]
  · rw [Parser.operand]

/-- Any text between single quotes finds itself in everything, and between
double quotes it finds the member of that name, or null in an object that has
none. -/
theorem quotedText_finds (text : String) :
    (∃ query, Expression.parse (quotedText '\'' text) = .ok query ∧
      ∀ data, query.search data = .str text) ∧
      ∃ query, Expression.parse (quotedText '"' text) = .ok query ∧
        ∀ members : List (String × Json),
          query.search (.obj members) = (members.lookup text).getD .null := by
  constructor
  · refine ⟨_, parse_singleQuoted text, fun data => ?_⟩
    rw [Expression.search]
  · refine ⟨_, parse_doubleQuoted text, fun members => ?_⟩
    rw [Expression.search]
    rfl

/-- Quotes of the other kind are left alone. -/
example : quotedText '\'' "a \"dog's\" \\" = "'a \"dog\\'s\" \\\\'" := by decide

end Query
end CharacterSheet
