import CharacterSheet.Proofs.Formula.Completeness

/-!
# The parser is exact

A text is read as an expression exactly when its tokens, all of them, spell
that expression according to the grammar.  In particular no list of tokens
spells two expressions, and the bound on the nesting of calls is never in the
way.
-/

namespace CharacterSheet
namespace Formula
namespace Grammar

/-- Tokens are read as the expression that they derive as a whole. -/
theorem ofTokens_eq_ok_iff {tokens : List Token} {expression : Expression} :
    Expression.ofTokens tokens = .ok expression ↔ Derives .comparison tokens expression := by
  constructor
  · exact derives_of_ofTokens
  · intro derivation
    have enough : 10 * tokens.length + Phrase.comparison.calls ≤
        Parser.depthBound tokens.length := by
      simp only [Phrase.calls, Parser.depthBound]
      omega
    have reading := derivation.completes.read_append (closes_nil _) enough
    rw [List.append_nil, Phrase.read] at reading
    rw [Expression.ofTokens, reading]
    rfl

/-- The grammar is unambiguous. -/
theorem Derives.unique {tokens : List Token} {first second : Expression}
    (left : Derives .comparison tokens first) (right : Derives .comparison tokens second) :
    first = second := by
  have same := (ofTokens_eq_ok_iff.mpr left).symm.trans (ofTokens_eq_ok_iff.mpr right)
  exact Except.ok.inj same

/-- Parsing a text succeeds exactly when the text consists of tokens that the
grammar derives, and the result is the expression of that derivation, of which
there is only one. -/
theorem parse_eq_ok_iff_derives (text : String) :
    (∀ expression, Expression.parse text = .ok expression ↔
      ∃ tokens, Token.scan text.toList = .ok tokens ∧
        Derives .comparison tokens expression) ∧
    ∀ (tokens : List Token) (first second : Expression), Derives .comparison tokens first →
      Derives .comparison tokens second → first = second := by
  refine ⟨?_, fun _ _ _ => Derives.unique⟩
  intro expression
  rw [Expression.parse, bind_eq_ok]
  constructor
  · rintro ⟨tokens, scanned, reading⟩
    exact ⟨tokens, scanned, ofTokens_eq_ok_iff.mp reading⟩
  · rintro ⟨tokens, scanned, derivation⟩
    exact ⟨tokens, scanned, ofTokens_eq_ok_iff.mpr derivation⟩

/-- A sign before a power stands outside of it, and one in an exponent inside. -/
example : Expression.parse "-@a ^ -@b ^ @c" =
    .ok (.negate (.binary .power (.reference "a")
      (.negate (.binary .power (.reference "b") (.reference "c"))))) := by
  cbv

/-- All relations are on one level. -/
example : Expression.parse "@a < +@b == (@c)" =
    .ok (.binary (.compare .equal)
      (.binary (.compare .less) (.reference "a") (.reference "b")) (.reference "c")) := by
  cbv

end Grammar
end Formula
end CharacterSheet
