import CharacterSheet.Proofs.Json.Grammar
import CharacterSheet.Proofs.Numeric.Digits

/-!
# Reading numbers and string literals

Numbers and string literals are taken from the front of a text.  A string
literal has a closing quote.  A number ends where the text goes on with
something else, so `readNumber?_append` needs to know that the number does not
go on with what stands behind.
-/

namespace CharacterSheet
namespace Json
namespace Grammar

/-! ## Numbers -/

/-- Whether a number goes on with a character behind it. -/
def continuesNumber (c : Char) : Bool :=
  c.isDigit || c = '.' || c = 'e' || c = 'E'

/-- No number goes on with a text. -/
def EndsNumber (tail : List Char) : Prop :=
  ∀ c ∈ tail.head?, continuesNumber c = false

theorem EndsNumber.nil : EndsNumber [] := by
  rintro _ ⟨⟩

theorem EndsNumber.cons {c : Char} (ends : continuesNumber c = false) (tail : List Char) :
    EndsNumber (c :: tail) := by
  rintro _ ⟨⟩
  exact ends

theorem not_isDigit_of_continuesNumber {c : Char} (ends : continuesNumber c = false) :
    c.isDigit = false ∧ c ≠ '.' ∧ c ≠ 'e' ∧ c ≠ 'E' := by
  simpa [continuesNumber, and_assoc] using ends

theorem exists_head_of_digits {digits : List Char} (written : digits ≠ [])
    (isDigit : ∀ c ∈ digits, c.isDigit = true) :
    ∃ c rest, digits = c :: rest ∧ c.isDigit = true := by
  cases digits with
  | nil => exact absurd rfl written
  | cons c rest => exact ⟨c, rest, rfl, isDigit c List.mem_cons_self⟩

theorem readFraction?_append {part tail : List Char} {fraction : Option (List Char)}
    (writes : WritesFraction part fraction)
    (stops : ∀ c ∈ tail.head?, c.isDigit = false ∧ c ≠ '.') :
    readFraction? (part ++ tail) = some (fraction, tail) := by
  cases writes with
  | absent =>
    unfold readFraction?
    split
    · rename_i rest same
      rw [List.nil_append] at same
      exact absurd rfl (stops '.' (by rw [same]; rfl)).2
    · rfl
  | @present digits written isDigit =>
    simp only [List.cons_append, readFraction?,
      Numeric.spanDigits_append isDigit fun c first => (stops c first).1]
    exact if_neg (by simpa using written)

theorem exists_writesFraction {text rest : List Char} {fraction : Option (List Char)}
    (reads : readFraction? text = some (fraction, rest)) :
    ∃ part, text = part ++ rest ∧ WritesFraction part fraction := by
  unfold readFraction? at reads
  split at reads
  · rename_i behind
    rcases Numeric.exists_digits_append behind with ⟨digits, more, rfl, isDigit, ends⟩
    simp only [Numeric.spanDigits_append isDigit ends] at reads
    split at reads
    · cases reads
    · rename_i written
      cases reads
      exact ⟨'.' :: digits, rfl, .present (by simpa using written) isDigit⟩
  · cases reads
    exact ⟨[], rfl, .absent⟩

theorem readSign_append {sign digits tail : List Char} {down : Bool}
    (signs : WritesSign sign down) (written : digits ≠ [])
    (isDigit : ∀ c ∈ digits, c.isDigit = true) :
    readSign (sign ++ (digits ++ tail)) = (down, digits ++ tail) := by
  rcases exists_head_of_digits written isDigit with ⟨c, rest, rfl, digit⟩
  cases signs with
  | absent =>
    unfold readSign
    split
    · rename_i same
      cases same
      exact absurd digit (by decide)
    · rename_i same
      cases same
      exact absurd digit (by decide)
    · rfl
  | plus => rfl
  | minus => rfl

theorem exists_writesSign (text : List Char) :
    ∃ sign, text = sign ++ (readSign text).2 ∧ WritesSign sign (readSign text).1 := by
  unfold readSign
  split
  · exact ⟨['-'], rfl, .minus⟩
  · exact ⟨['+'], rfl, .plus⟩
  · exact ⟨[], rfl, .absent⟩

theorem readPower?_append {power tail : List Char} {exponent : Option Int}
    (writes : WritesPower power exponent) (ends : EndsNumber tail) :
    readPower? (power ++ tail) = some (exponent, tail) := by
  cases writes with
  | absent =>
    cases tail with
    | nil => rfl
    | cons c tail =>
      have noMark := (not_isDigit_of_continuesNumber (ends c rfl)).2.2
      exact if_neg (by simpa using noMark)
  | @present mark sign digits down marks signs written isDigit =>
    have stops : ∀ c ∈ tail.head?, c.isDigit = false := fun c first =>
      (not_isDigit_of_continuesNumber (ends c first)).1
    have isMark : (mark = 'e' || mark = 'E') = true := by simpa using marks
    simp only [List.cons_append, List.append_assoc, readPower?, isMark, if_true,
      readSign_append signs written isDigit, Numeric.spanDigits_append isDigit stops]
    exact if_neg (by simpa using written)

theorem exists_writesPower {text rest : List Char} {exponent : Option Int}
    (reads : readPower? text = some (exponent, rest)) :
    ∃ power, text = power ++ rest ∧ WritesPower power exponent := by
  unfold readPower? at reads
  split at reads
  · cases reads
    exact ⟨[], rfl, .absent⟩
  · rename_i mark behind
    split at reads
    · rename_i marks
      rcases exists_writesSign behind with ⟨sign, split, signs⟩
      rcases Numeric.exists_digits_append (readSign behind).2 with
        ⟨digits, more, unsigned, isDigit, ends⟩
      rw [unsigned] at split
      simp only [unsigned, Numeric.spanDigits_append isDigit ends] at reads
      split at reads
      · cases reads
      · rename_i written
        cases reads
        refine ⟨mark :: (sign ++ digits), by rw [split, List.cons_append, List.append_assoc], ?_⟩
        exact .present (by simpa using marks) signs (by simpa using written) isDigit
    · cases reads
      exact ⟨[], rfl, .absent⟩

/-- What stands before an exponent does not go on with it. -/
theorem WritesPower.head {power tail : List Char} {exponent : Option Int}
    (writes : WritesPower power exponent) (ends : EndsNumber tail) :
    ∀ c ∈ (power ++ tail).head?, c.isDigit = false ∧ c ≠ '.' := by
  cases writes with
  | absent =>
    intro c first
    have apart := not_isDigit_of_continuesNumber (ends c first)
    exact ⟨apart.1, apart.2.1⟩
  | present marks =>
    rintro _ ⟨⟩
    rcases marks with rfl | rfl <;> decide

theorem WritesFraction.head {part tail : List Char} {fraction : Option (List Char)}
    (writes : WritesFraction part fraction)
    (ends : ∀ c ∈ tail.head?, c.isDigit = false ∧ c ≠ '.') :
    ∀ c ∈ (part ++ tail).head?, c.isDigit = false := by
  cases writes with
  | absent => exact fun c first => (ends c first).1
  | present =>
    rintro _ ⟨⟩
    decide

theorem readNumber?_eq_some {text rest : List Char} {number : Number} :
    readNumber? text = some (number, rest) ↔
      ∃ fraction exponent behind,
        isWholePart (Numeric.spanDigits (readMinus text).2).1 = true ∧
          readFraction? (Numeric.spanDigits (readMinus text).2).2 = some (fraction, behind) ∧
            readPower? behind = some (exponent, rest) ∧
              numberOf? (readMinus text).1 (Numeric.spanDigits (readMinus text).2).1 fraction
                exponent = some number := by
  simp only [readNumber?, Option.bind_eq_bind, Option.bind_eq_some_iff, guard]
  constructor
  · intro reads
    split at reads
    · rename_i isWhole
      rcases reads with ⟨_, -, ⟨fraction, behind⟩, fractionRead, ⟨exponent, _⟩, powerRead,
        found, made, result⟩
      cases result
      exact ⟨fraction, exponent, behind, isWhole, fractionRead, powerRead, made⟩
    · rcases reads with ⟨_, ⟨⟩, -⟩
  · rintro ⟨fraction, exponent, behind, isWhole, fractionRead, powerRead, made⟩
    rw [if_pos isWhole]
    exact ⟨(), rfl, _, fractionRead, _, powerRead, number, made, rfl⟩

theorem readMinus_append {minus digits tail : List Char} {negative : Bool}
    (signs : WritesMinus minus negative) (written : digits ≠ [])
    (isDigit : ∀ c ∈ digits, c.isDigit = true) :
    readMinus (minus ++ (digits ++ tail)) = (negative, digits ++ tail) := by
  rcases exists_head_of_digits written isDigit with ⟨c, rest, rfl, digit⟩
  cases signs with
  | absent =>
    unfold readMinus
    split
    · rename_i same
      cases same
      exact absurd digit (by decide)
    · rfl
  | present => rfl

theorem exists_writesMinus (text : List Char) :
    ∃ minus, text = minus ++ (readMinus text).2 ∧ WritesMinus minus (readMinus text).1 := by
  unfold readMinus
  split
  · exact ⟨['-'], rfl, .present⟩
  · exact ⟨[], rfl, .absent⟩

theorem ne_nil_of_isWholePart {digits : List Char} (isWhole : isWholePart digits = true) :
    digits ≠ [] := by
  rintro rfl
  cases isWhole

theorem readNumber?_append {text tail : List Char} {number : Number}
    (writes : WritesNumber text number) (ends : EndsNumber tail) :
    readNumber? (text ++ tail) = some (number, tail) := by
  cases writes with
  | @parts minus whole part power negative fraction exponent _ signs isWhole isDigit behindPoint
      raised made =>
    have powerStops := raised.head ends
    have unsigned : readMinus (minus ++ (whole ++ (part ++ power)) ++ tail) =
        (negative, whole ++ (part ++ (power ++ tail))) := by
      simp only [List.append_assoc]
      exact readMinus_append signs (ne_nil_of_isWholePart isWhole) isDigit
    rw [readNumber?_eq_some, unsigned,
      Numeric.spanDigits_append isDigit (behindPoint.head powerStops)]
    exact ⟨fraction, exponent, power ++ tail, isWhole,
      readFraction?_append behindPoint powerStops, readPower?_append raised ends, made⟩

theorem exists_writesNumber {text rest : List Char} {number : Number}
    (reads : readNumber? text = some (number, rest)) :
    ∃ part, text = part ++ rest ∧ WritesNumber part number := by
  rcases readNumber?_eq_some.mp reads with
    ⟨fraction, exponent, behind, isWhole, fractionRead, powerRead, made⟩
  rcases exists_writesMinus text with ⟨minus, split, signs⟩
  rcases Numeric.exists_digits_append (readMinus text).2 with ⟨whole, more, unsigned, isDigit, ends⟩
  rw [unsigned, Numeric.spanDigits_append isDigit ends] at isWhole fractionRead made
  rcases exists_writesFraction fractionRead with ⟨part, rfl, behindPoint⟩
  rcases exists_writesPower powerRead with ⟨power, rfl, raised⟩
  refine ⟨minus ++ (whole ++ (part ++ power)), ?_, .parts signs isWhole isDigit behindPoint raised made⟩
  rw [split, unsigned]
  simp only [List.append_assoc]

/-! ## String literals -/

theorem readString?_append {text content : List Char} (writes : WritesString text content)
    (seen tail : List Char) :
    readString? seen (text ++ tail) = some (String.ofList (seen.reverse ++ content), tail) := by
  induction writes generalizing seen with
  | closed => rw [List.append_nil]; rfl
  | @plain c text content printable noQuote noEscape _ inductionHypothesis =>
    rw [List.cons_append, readString?, if_neg (Nat.not_lt.mpr printable), inductionHypothesis]
    · simp
    all_goals intros; simp_all
  | @letter letter c text content escapes _ inductionHypothesis =>
    rw [List.cons_append, List.cons_append, readString?]
    · simp [escapes, inductionHypothesis]
    · rintro _ _ _ _ _ rfl
      cases escapes
  | @unit a b c d unit text content hex single _ inductionHypothesis =>
    have noHigh : (0xD800 ≤ unit && unit < 0xDC00) = false := by simp; omega
    have noLow : (0xDC00 ≤ unit && unit < 0xE000) = false := by simp; omega
    simp only [List.cons_append]
    rw [readString?]
    simp only [hex, noHigh, noLow, inductionHypothesis, Bool.false_eq_true, if_false,
      List.reverse_cons, List.append_assoc, List.singleton_append]
  | @pair a b c d e f g h high low text content hexHigh isHigh hexLow isLow _ inductionHypothesis =>
    simp only [List.cons_append]
    rw [readString?]
    simp [hexHigh, hexLow, isHigh, isLow, inductionHypothesis]

theorem exists_writesString {seen text rest : List Char} {read : String}
    (reads : readString? seen text = some (read, rest)) :
    ∃ part content, text = part ++ rest ∧ WritesString part content ∧
      read = String.ofList (seen.reverse ++ content) := by
  fun_induction readString? seen text with
  | case2 seen rest =>
    cases reads
    exact ⟨['"'], [], rfl, .closed, by rw [List.append_nil]⟩
  | case5 seen a b c d high hexHigh isHigh e f g h rest low hexLow isLow code
      inductionHypothesis =>
    rcases inductionHypothesis reads with ⟨part, content, rfl, writes, rfl⟩
    simp only [Bool.and_eq_true, decide_eq_true_eq] at isHigh isLow
    exact ⟨_, _, rfl, .pair hexHigh isHigh hexLow isLow writes, by simp [code]⟩
  | case9 seen a b c d rest unit hex noHigh noLow inductionHypothesis =>
    rcases inductionHypothesis reads with ⟨part, content, rfl, writes, rfl⟩
    simp only [Bool.and_eq_true, decide_eq_true_eq] at noHigh noLow
    exact ⟨_, _, rfl, .unit hex (by omega) writes, by simp⟩
  | case10 seen letter rest noUnit c escapes inductionHypothesis =>
    rcases inductionHypothesis reads with ⟨part, content, rfl, writes, rfl⟩
    exact ⟨_, _, rfl, .letter escapes writes, by simp⟩
  | case13 seen c rest noQuote noUnit noEscape printable inductionHypothesis =>
    have plain : c ≠ '\\' := by
      rintro rfl
      cases rest with
      | nil => cases reads
      | cons letter rest => exact noEscape letter rest rfl rfl
    rcases inductionHypothesis reads with ⟨part, content, rfl, writes, rfl⟩
    exact ⟨_, _, rfl, .plain (Nat.not_lt.mp printable) noQuote plain writes, by simp⟩
  | _ => cases reads

end Grammar
end Json
end CharacterSheet
