import CharacterSheet.Formula.Basic
import CharacterSheet.Proofs.Json.Record
import CharacterSheet.Proofs.Numeric.Written
import CharacterSheet.Proofs.Text.Blank

/-!
# Bare numbers as expressions

Data may give a number where an expression text is expected, and then the text
of the number is the expression.  A number that is written in full is read back
as the same number, sign and all.  One that is written with a power of ten is
not an expression, because the digits in front of the letter end the number;
so it counts as zero.
-/

namespace CharacterSheet
namespace Formula

open Numeric (WritesInFull WritesPlainly withSign)

/-! ## Tokens of numbers -/

section

variable {text tail : List Char} {value : Float} {bound : ℕ} {d : Numeric.Decimal}

theorem isBlank_of_isNumberChar {c : Char} (number : isNumberChar c = true) :
    Text.isBlank c = false := by
  rcases Bool.or_eq_true_iff.mp number with digit | point
  · exact Text.isBlank_of_isDigit digit
  · rw [decide_eq_true_eq] at point
    subst point
    decide

theorem Token.scanWithin_nil : Token.scanWithin bound [] = .ok [] := by
  cases bound <;> rfl

/-- A token at the front of a text comes before the tokens of the rest. -/
theorem Token.scanWithin_cons {first : Char} {token : Token} (dark : Text.isBlank first = false)
    (one : scanOne first text = .ok (token, tail)) :
    Token.scanWithin (bound + 1) (first :: text) =
      (Token.scanWithin bound tail).map (token :: ·) := by
  have unfolded : Token.scanWithin (bound + 1) (first :: text) =
      ((scanOne first text).bind fun scanned =>
        (Token.scanWithin bound scanned.2).bind fun tokens => .ok (scanned.1 :: tokens)) := by
    rw [scanWithin, dark]
    rfl
  rw [unfolded, one]
  cases found : Token.scanWithin bound tail <;> simp only [Except.bind, found] <;> rfl

/-- Number characters up to what is none make one token. -/
theorem Token.scanWithin_number (nonempty : text ≠ [])
    (isNumber : ∀ c ∈ text, isNumberChar c = true)
    (stops : ∀ c ∈ tail.head?, isNumberChar c = false)
    (read : Numeric.readFloat? text = some value) :
    Token.scanWithin (bound + 1) (text ++ tail) =
      (Token.scanWithin bound tail).map (.number value :: ·) := by
  cases text with
  | nil => exact absurd rfl nonempty
  | cons first rest =>
    have start := isNumber first List.mem_cons_self
    have span : (first :: (rest ++ tail)).span isNumberChar = (first :: rest, tail) := by
      have both := List.span_eq_takeWhile_dropWhile isNumberChar (first :: rest ++ tail)
      rw [List.takeWhile_append_of_pos isNumber, List.dropWhile_append_of_pos isNumber] at both
      cases tail with
      | nil => simpa using both
      | cons c tail =>
        have ends := Bool.eq_false_iff.mp (stops c rfl)
        rwa [List.takeWhile_cons_of_neg ends, List.dropWhile_cons_of_neg ends, List.append_nil]
          at both
    have one : scanOne first (rest ++ tail) = .ok (.number value, tail) := by
      simp only [scanOne, start, span, read, if_true]
    exact scanWithin_cons (isBlank_of_isNumberChar start) one

theorem isNumberChar_of_writesInFull (writes : WritesInFull text d) :
    text ≠ [] ∧ ∀ c ∈ text, isNumberChar c = true := by
  rcases writes with ⟨whole, part, fraction, rfl, behind, nonempty, isDigit, isDigitFraction, -⟩
  have ofDigit {c : Char} (digit : c.isDigit = true) : isNumberChar c = true := by
    rw [isNumberChar, digit, Bool.true_or]
  refine ⟨by simp [nonempty], List.forall_mem_append.mpr ⟨fun c member => ofDigit (isDigit c member), ?_⟩⟩
  rcases behind with ⟨rfl, -⟩ | rfl
  · exact List.forall_mem_nil _
  · exact List.forall_mem_cons.mpr ⟨by decide, fun c member => ofDigit (isDigitFraction c member)⟩

/-- A number that is written in full is one token. -/
theorem Token.scanWithin_writesInFull (writes : WritesInFull text d)
    (stops : ∀ c ∈ tail.head?, isNumberChar c = false) :
    Token.scanWithin (bound + 1) (text ++ tail) =
      (Token.scanWithin bound tail).map (.number d.toFloat :: ·) :=
  Token.scanWithin_number (isNumberChar_of_writesInFull writes).1
    (isNumberChar_of_writesInFull writes).2 stops writes.readFloat?

/-- A minus sign in front of a text is a token of its own. -/
theorem Token.scanWithin_minus :
    Token.scanWithin (bound + 1) ('-' :: text) =
      (Token.scanWithin bound text).map (.minus :: ·) :=
  scanWithin_cons (by decide) rfl

end

/-- A number that is written in full is an expression of that value. -/
theorem resolve_of_writesPlainly {text : String} {value : Float}
    (writes : WritesPlainly text.toList value) (finite : value.isFinite = true) (index : Index) :
    resolve text index = value := by
  rcases writes with ⟨negative, magnitude, d, spelled, writes, rfl⟩
  obtain ⟨bound, long⟩ : ∃ bound, magnitude.length = bound + 1 :=
    Nat.exists_eq_succ_of_ne_zero
      (List.length_pos_iff.mpr (isNumberChar_of_writesInFull writes).1).ne'
  have scanned : Token.scanWithin (bound + 1) magnitude = .ok [.number d.toFloat] := by
    have token : Token.scanWithin (bound + 1) (magnitude ++ []) = _ :=
      Token.scanWithin_writesInFull writes (by rintro _ ⟨⟩)
    rwa [List.append_nil, Token.scanWithin_nil] at token
  have parsed : Expression.parse text =
      .ok (if negative then .negate (.number d.toFloat) else .number d.toFloat) := by
    cases negative with
    | false =>
      have tokens : Token.scan text.toList = .ok [.number d.toFloat] := by
        rw [Token.scan, spelled]
        simpa [long] using scanned
      rw [Expression.parse, tokens]
      rfl
    | true =>
      have tokens : Token.scan text.toList = .ok [.minus, .number d.toFloat] := by
        rw [Token.scan, spelled]
        simp [long, Token.scanWithin_minus, scanned]
        rfl
      rw [Expression.parse, tokens]
      rfl
  rw [resolve, tryResolve, parsed]
  cases negative <;> exact if_pos finite

/-- The letter of a power of ten and what stands behind it are three tokens. -/
theorem Token.scanWithin_power {sign : Char} (signs : sign = '-' ∨ sign = '+') (power bound : ℕ) :
    ∃ token, (token = .minus ∨ token = .plus) ∧
      Token.scanWithin (bound + 3) ('e' :: sign :: (toString power).toList) =
        .ok [.name "e", token, .number (⟨power, 0⟩ : Numeric.Decimal).toFloat] := by
  have writes := Numeric.writesInFull_toString power
  have digits : Token.scanWithin (bound + 1) ((toString power).toList ++ []) = _ :=
    scanWithin_writesInFull writes (by rintro _ ⟨⟩)
  rw [List.append_nil, scanWithin_nil] at digits
  rcases signs with rfl | rfl
  · refine ⟨.minus, Or.inl rfl, ?_⟩
    rw [scanWithin_cons (by decide) rfl, scanWithin_minus, digits]
    rfl
  · refine ⟨.plus, Or.inr rfl, ?_⟩
    rw [scanWithin_cons (by decide) rfl, scanWithin_cons (by decide) rfl, digits]
    rfl

/-- A number with a power of ten is no expression. -/
theorem resolve_of_power {text : String} {magnitude : List Char} {d : Numeric.Decimal}
    {negative : Bool} {sign : Char} {power : ℕ} (writes : WritesInFull magnitude d)
    (signs : sign = '-' ∨ sign = '+')
    (spelled : text.toList = (if negative then ['-'] else []) ++
      (magnitude ++ 'e' :: sign :: (toString power).toList)) (index : Index) :
    resolve text index = 0 := by
  have digits := (isNumberChar_of_writesInFull (Numeric.writesInFull_toString power)).1
  obtain ⟨bound, long⟩ : ∃ bound,
      (magnitude ++ 'e' :: sign :: (toString power).toList).length = bound + 4 := by
    have some := List.length_pos_iff.mpr digits
    have someMagnitude := List.length_pos_iff.mpr (isNumberChar_of_writesInFull writes).1
    refine ⟨magnitude.length + (toString power).toList.length - 2, ?_⟩
    rw [List.length_append, List.length_cons, List.length_cons]
    omega
  rcases Token.scanWithin_power signs power bound with ⟨token, signToken, behind⟩
  generalize (⟨power, 0⟩ : Numeric.Decimal).toFloat = exponent at behind
  have scanned : Token.scanWithin (bound + 4) (magnitude ++ 'e' :: sign :: (toString power).toList) =
      .ok [.number d.toFloat, .name "e", token, .number exponent] := by
    rw [Token.scanWithin_writesInFull writes (by rintro _ ⟨⟩; decide), behind]
    rfl
  have parsed : Expression.parse text = .error .trailingInput := by
    cases negative with
    | false =>
      have tokens : Token.scan text.toList =
          .ok [.number d.toFloat, .name "e", token, .number exponent] := by
        rw [Token.scan, spelled, if_neg Bool.false_ne_true, List.nil_append, long, scanned]
      rw [Expression.parse, tokens]
      rcases signToken with rfl | rfl <;> rfl
    | true =>
      have tokens : Token.scan text.toList =
          .ok [.minus, .number d.toFloat, .name "e", token, .number exponent] := by
        rw [Token.scan, spelled, if_pos rfl, List.cons_append, List.nil_append, List.length_cons, long,
          Token.scanWithin_minus, scanned]
        rfl
      rw [Expression.parse, tokens]
      rcases signToken with rfl | rfl <;> rfl
  rw [resolve, tryResolve, parsed]
  rfl

/-! ## The value of a bare number -/

/-- The value that a number has as an expression. -/
def bareValue (number : Number) : Float :=
  if 'e' ∈ number.text.toList then 0 else number.toFloat

theorem not_mem_of_writesPlainly {text : List Char} {value : Float}
    (writes : WritesPlainly text value) : 'e' ∉ text := by
  rcases writes with ⟨negative, magnitude, d, rfl, writes, -⟩
  intro member
  rcases List.mem_append.mp member with sign | digit
  · cases negative <;> simp at sign
  · exact absurd ((isNumberChar_of_writesInFull writes).2 'e' digit) (by decide)

/-- The text of a number without a power of ten writes it in full; with one it
is no expression, and the number is not zero. -/
theorem text_cases {number : Number} (finite : number.toFloat.isFinite = true) :
    WritesPlainly number.text.toList number.toFloat ∨
      ('e' ∈ number.text.toList ∧ (∀ index, resolve number.text index = 0) ∧
        number.toFloat ≠ 0) := by
  cases number with
  | int value => exact Or.inl (Numeric.writesPlainly_int value)
  | float value =>
    have finite : value.isFinite = true := finite
    have written : (Number.float value).text = Numeric.exactLayout.write value := if_pos finite
    rw [written]
    cases positional : Numeric.exactLayout.isPositional (Numeric.exactLayout.leading value) with
    | true => exact Or.inl (Numeric.writesPlainly_write (Or.inr rfl) finite positional)
    | false =>
      rcases Numeric.write_of_not_positional positional with
        ⟨magnitude, d, sign, power, writes, signs, spelled⟩
      refine Or.inr ⟨?_, resolve_of_power writes signs spelled, ?_⟩
      · rw [spelled]
        simp
      · rintro (rfl : value = 0)
        exact absurd positional (by decide +kernel)

/-- A bare number is decoded as a formula and as the result of a switch without
cases.  Both have the same value on every index, and it is the number exactly
if the text of the number has no power of ten. -/
theorem evaluate_bareNumber {number : Number} (finite : number.toFloat.isFinite = true)
    (subject : String) :
    ∃ plain switch, ofJson? (.object [("expression", .num number)]) = some plain ∧
      ofJson? (.object [("switchExpression", .str subject), ("cases", .arr []),
        ("defaultValue", .num number)]) = some switch ∧
      (∀ index, plain.evaluate index = bareValue number ∧
        switch.evaluate index = bareValue number) ∧
      (bareValue number = number.toFloat ↔ 'e' ∉ number.text.toList) := by
  have value : (∀ index, resolve number.text index = bareValue number) ∧
      (bareValue number = number.toFloat ↔ 'e' ∉ number.text.toList) := by
    rw [bareValue]
    rcases text_cases finite with writes | ⟨letter, none, nonzero⟩
    · have noLetter := not_mem_of_writesPlainly writes
      rw [if_neg noLetter]
      exact ⟨resolve_of_writesPlainly writes finite, iff_of_true rfl noLetter⟩
    · rw [if_pos letter]
      exact ⟨none, iff_of_false (Ne.symm nonzero) (not_not_intro letter)⟩
  have decoded : Switch.ofJson? (.object [("switchExpression", .str subject), ("cases", .arr []),
      ("defaultValue", .num number)]) = some ⟨subject, [], number.text⟩ := by
    have stored := Members.lookup_stored [("switchExpression", .str subject), ("cases", .arr []),
      ("defaultValue", .num number)]
    simp only [Switch.ofJson?, Json.record?, Json.object, Json.members?, Option.bind_some,
      Members.required, stored]
    simp [expressionText?, Json.list?]
  refine ⟨.plain number.text, .switch ⟨subject, [], number.text⟩, rfl, by rw [ofJson?, decoded],
    fun index => ?_, value.2⟩
  exact ⟨value.1 index, value.1 index⟩

theorem evaluate_bareNumber_tenth :
    (Number.float (-0.1)).toFloat.isFinite = true ∧
      ∃ plain switch, ofJson? (.object [("expression", .num (.float (-0.1)))]) = some plain ∧
        ofJson? (.object [("switchExpression", .str "@level"), ("cases", .arr []),
          ("defaultValue", .num (.float (-0.1)))]) = some switch ∧
        (∀ index, plain.evaluate index = bareValue (.float (-0.1)) ∧
          switch.evaluate index = bareValue (.float (-0.1))) ∧
        (bareValue (.float (-0.1)) = (Number.float (-0.1)).toFloat ↔
          'e' ∉ (Number.float (-0.1)).text.toList) :=
  have finite : (Number.float (-0.1)).toFloat.isFinite = true := by decide +kernel
  ⟨finite, evaluate_bareNumber finite "@level"⟩

/-- Not every bare number has its own value as an expression. -/
theorem not_evaluate_bareNumber :
    ¬ ∀ number : Number, number.toFloat.isFinite = true →
      ∃ plain, ofJson? (.object [("expression", .num number)]) = some plain ∧
        ∀ index, plain.evaluate index = number.toFloat := by
  intro claimed
  have finite : (Number.float 1e20).toFloat.isFinite = true := by decide +kernel
  rcases claimed (.float 1e20) finite with ⟨plain, decoded, value⟩
  have text : (Number.float 1e20).text = "1e+20" := by decide +kernel
  obtain rfl : Formula.plain "1e+20" = plain := by
    rw [← text]
    exact Option.some.inj decoded
  have none : resolve "1e+20" .empty ≠ 1e20 := by decide +kernel
  exact none (value .empty)

end Formula
end CharacterSheet
