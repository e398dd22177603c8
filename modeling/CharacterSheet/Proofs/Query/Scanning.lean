import CharacterSheet.Proofs.Except
import CharacterSheet.Query.Token
import Mathlib.Data.List.TakeDrop

/-!
# What sets the tokens of a query apart

No token goes on over a blank or a parenthesis, except inside quotes, and what
is scanned has no open quotes.  So if a text goes on with such a character, its
tokens are those before the character and then those from there on.
-/

namespace CharacterSheet
namespace Query
namespace Token

/-- Characters are passed up to one that stops them, or to the end. -/
theorem span_append {passes : Char → Bool} {stop : Char} (stops : passes stop = false)
    (text more : List Char) :
    (text ++ stop :: more).span passes =
      ((text.span passes).1, (text.span passes).2 ++ stop :: more) := by
  simp only [List.span_eq_takeWhile_dropWhile]
  induction text with
  | nil => simp [stops]
  | cons c rest inductionHypothesis =>
    rw [Prod.mk.injEq] at inductionHypothesis ⊢
    cases passed : passes c with
    | true => simpa [passed] using inductionHypothesis
    | false => simp [passed]

/-- Whether a character is part of no name and no number and does not end a
symbol of two characters. -/
def setsApart (c : Char) : Bool :=
  !isNameChar c && !isNumberChar c && !(['?', ']', '|', '&', '='].contains c)

section

variable {stop : Char}

theorem isNameChar_of_setsApart (apart : setsApart stop = true) : isNameChar stop = false := by
  simp only [setsApart, Bool.and_eq_true, Bool.not_eq_true'] at apart
  exact apart.1.1

theorem isNumberChar_of_setsApart (apart : setsApart stop = true) : isNumberChar stop = false := by
  simp only [setsApart, Bool.and_eq_true, Bool.not_eq_true'] at apart
  exact apart.1.2

theorem not_mem_of_setsApart (apart : setsApart stop = true) :
    stop ∉ ['?', ']', '|', '&', '='] := by
  simp only [setsApart, Bool.and_eq_true, Bool.not_eq_true'] at apart
  exact fun member => Bool.false_ne_true (apart.2.symm.trans (List.contains_iff_mem.mpr member))

end

/-- A minus sign before such a character is no part of a number, as at the
end. -/
theorem isNumberStart_append {stop : Char} (apart : setsApart stop = true) (first : Char)
    (rest more : List Char) :
    isNumberStart first (rest ++ stop :: more) = isNumberStart first rest := by
  cases rest with
  | nil =>
    have noDigit : stop.isDigit = false :=
      (Bool.or_eq_false_iff.mp (isNumberChar_of_setsApart apart)).1
    simp [isNumberStart, noDigit]
  | cons c rest => rfl

theorem readQuoted?_cons {quote c : Char} (plain : c ≠ '\\') (seen rest : List Char) :
    readQuoted? quote seen (c :: rest) =
      if c = quote then some (seen.reverse, rest) else readQuoted? quote (c :: seen) rest := by
  rw [readQuoted?]
  intro escaped behind same
  exact absurd same plain

/-- What follows a closing quote does not matter.  A backslash at the very end
leaves the quotes open. -/
theorem readQuoted?_append {quote : Char} (unescaped : quote ≠ '\\')
    {seen text content behind : List Char}
    (closed : readQuoted? quote seen text = some (content, behind)) (more : List Char) :
    readQuoted? quote seen (text ++ more) = some (content, behind ++ more) := by
  fun_induction readQuoted? quote seen text with
  | case1 => cases closed
  | case2 seen c rest inductionHypothesis => exact inductionHypothesis closed
  | case3 seen rest noEscape =>
    cases closed
    rw [List.cons_append, readQuoted?_cons unescaped, if_pos rfl]
  | case4 seen c rest noEscape other inductionHypothesis =>
    have plain : c ≠ '\\' := by
      rintro rfl
      cases rest with
      | nil => cases closed
      | cons escaped behind => exact noEscape escaped behind rfl rfl
    rw [List.cons_append, readQuoted?_cons plain, if_neg other]
    exact inductionHypothesis closed

/-- A symbol ends before such a character as it does at the end of the text. -/
theorem symbol?_append {stop : Char} (apart : setsApart stop = true) {first : Char}
    {rest behind : List Char} {token : Token}
    (found : symbol? first rest = some (token, behind)) (more : List Char) :
    symbol? first (rest ++ stop :: more) = some (token, behind ++ stop :: more) := by
  have noSecond := not_mem_of_setsApart apart
  simp only [List.mem_cons, List.not_mem_nil, or_false, not_or] at noSecond
  unfold symbol? at found
  split at found
  all_goals cases found
  all_goals first
    | rfl
    | cases rest with
      | nil => simp_all [symbol?]
      | cons c behind => simp_all [symbol?]

/-- A quoted literal ends within the text behind its opening quote. -/
theorem suffix_of_readQuoted? {quote : Char} {seen text content behind : List Char}
    (closed : readQuoted? quote seen text = some (content, behind)) : behind <:+ text := by
  fun_induction readQuoted? quote seen text with
  | case1 => cases closed
  | case2 seen c rest inductionHypothesis =>
    have behindEscape : rest <:+ '\\' :: c :: rest := List.suffix_append ['\\', c] rest
    exact (inductionHypothesis closed).trans behindEscape
  | case3 =>
    cases closed
    exact List.suffix_cons _ _
  | case4 seen c rest _ _ inductionHypothesis =>
    exact (inductionHypothesis closed).trans (List.suffix_cons c rest)

theorem suffix_of_symbol? {first : Char} {rest behind : List Char} {token : Token}
    (found : symbol? first rest = some (token, behind)) : behind <:+ rest := by
  unfold symbol? at found
  split at found
  all_goals cases found
  all_goals first
    | exact List.suffix_refl _
    | exact List.suffix_cons _ _

theorem isNameChar_of_isNameStart {c : Char} (starts : isNameStart c = true) :
    isNameChar c = true := by
  simp only [isNameStart, isNameChar, Char.isAlphanum, Bool.or_eq_true] at starts ⊢
  exact starts.imp_left Or.inl

/-- A token leaves an end of the text behind its first character. -/
theorem suffix_of_scanOne {first : Char} {rest behind : List Char} {token : Token}
    (scanned : scanOne first rest = .ok (token, behind)) : behind <:+ rest := by
  unfold scanOne at scanned
  simp only [List.span_eq_takeWhile_dropWhile] at scanned
  split at scanned
  · rename_i letter
    rw [List.dropWhile_cons_of_pos (isNameChar_of_isNameStart letter)] at scanned
    cases scanned
    exact List.dropWhile_suffix _
  · split at scanned
    · split at scanned
      · cases scanned
        exact List.dropWhile_suffix _
      · cases scanned
    · split at scanned
      · split at scanned
        · rename_i closed
          rcases bind_eq_ok.mp scanned with ⟨quoted, _, result⟩
          cases result
          exact suffix_of_readQuoted? closed
        · cases scanned
      · split at scanned
        · rename_i found
          cases scanned
          exact suffix_of_symbol? found
        · cases scanned

/-- A token ends before such a character as it does at the end of the text. -/
theorem scanOne_append {stop : Char} (apart : setsApart stop = true) {first : Char}
    {rest behind : List Char} {token : Token}
    (scanned : scanOne first rest = .ok (token, behind)) (more : List Char) :
    scanOne first (rest ++ stop :: more) = .ok (token, behind ++ stop :: more) := by
  have nameEnds := isNameChar_of_setsApart apart
  have numberEnds := isNumberChar_of_setsApart apart
  unfold scanOne at scanned ⊢
  rw [isNumberStart_append apart, ← List.cons_append, span_append nameEnds,
    span_append numberEnds]
  by_cases letter : isNameStart first
  · rw [if_pos letter] at scanned ⊢
    cases scanned
    rfl
  rw [if_neg letter] at scanned ⊢
  by_cases digit : isNumberStart first rest
  · rw [if_pos digit] at scanned ⊢
    dsimp only at scanned ⊢
    split at scanned
    · cases scanned
      rfl
    · cases scanned
  rw [if_neg digit] at scanned ⊢
  by_cases quote : first = '"' || first = '\'' || first = '\x60'
  · rw [if_pos quote] at scanned ⊢
    split at scanned
    · rename_i content remaining closed
      rcases bind_eq_ok.mp scanned with ⟨quoted, made, result⟩
      cases result
      have unescaped : first ≠ '\\' := by
        rintro rfl
        exact absurd quote (by decide)
      rw [readQuoted?_append unescaped closed]
      exact bind_eq_ok.mpr ⟨_, made, rfl⟩
    · cases scanned
  · rw [if_neg quote] at scanned ⊢
    split at scanned
    · rename_i found
      cases scanned
      rw [symbol?_append apart found]
    · cases scanned

theorem scanWithin_nil (bound : Nat) : scanWithin bound [] = .ok [] := by
  rw [scanWithin]

/-- A text begins with a blank or with a token. -/
theorem scanWithin_cons_eq_ok {bound : Nat} {c : Char} {rest : List Char} {tokens : List Token} :
    scanWithin (bound + 1) (c :: rest) = .ok tokens ↔
      if Text.isBlank c then scanWithin bound rest = .ok tokens
      else
        ∃ token behind others, scanOne c rest = .ok (token, behind) ∧
          scanWithin bound behind = .ok others ∧ tokens = token :: others := by
  rw [scanWithin]
  split
  · exact Iff.rfl
  · constructor
    · intro scanned
      rcases bind_eq_ok.mp scanned with ⟨⟨token, behind⟩, one, next⟩
      rcases bind_eq_ok.mp next with ⟨others, scannedBehind, result⟩
      cases result
      exact ⟨token, behind, others, one, scannedBehind, rfl⟩
    · rintro ⟨token, behind, others, one, scannedBehind, rfl⟩
      exact bind_eq_ok.mpr ⟨_, one, bind_eq_ok.mpr ⟨_, scannedBehind, rfl⟩⟩

/-- A larger bound on the length of a text does not matter. -/
theorem scanWithin_mono {bound larger : Nat} {text : List Char} {tokens : List Token}
    (scanned : scanWithin bound text = .ok tokens) (ordered : bound ≤ larger) :
    scanWithin larger text = .ok tokens := by
  induction bound generalizing larger text tokens with
  | zero =>
    cases text with
    | nil => rwa [scanWithin_nil] at scanned ⊢
    | cons c rest => cases scanned
  | succ bound inductionHypothesis =>
    cases text with
    | nil => rwa [scanWithin_nil] at scanned ⊢
    | cons c rest =>
      obtain ⟨larger, rfl⟩ := Nat.exists_eq_add_of_lt (Nat.lt_of_succ_le ordered)
      have below : bound ≤ bound + larger := Nat.le_add_right bound larger
      rw [scanWithin_cons_eq_ok] at scanned ⊢
      by_cases blank : Text.isBlank c
      · rw [if_pos blank] at scanned ⊢
        exact inductionHypothesis scanned below
      · rw [if_neg blank] at scanned ⊢
        rcases scanned with ⟨token, behind, others, one, scannedBehind, result⟩
        exact ⟨token, behind, others, one, inductionHypothesis scannedBehind below, result⟩

/-- The tokens of a text that goes on with such a character are those before
it and then those from there on. -/
theorem scanWithin_append {stop : Char} (apart : setsApart stop = true) {bound others : Nat}
    {text more : List Char} {tokens later : List Token}
    (scanned : scanWithin bound text = .ok tokens)
    (scannedMore : scanWithin others (stop :: more) = .ok later) :
    scanWithin (bound + others) (text ++ stop :: more) = .ok (tokens ++ later) := by
  induction bound generalizing text tokens with
  | zero =>
    cases text with
    | nil =>
      cases scanned
      exact scanWithin_mono scannedMore (Nat.le_add_left others 0)
    | cons c rest => cases scanned
  | succ bound inductionHypothesis =>
    cases text with
    | nil =>
      cases scanned
      exact scanWithin_mono scannedMore (Nat.le_add_left others (bound + 1))
    | cons c rest =>
      rw [Nat.succ_add, List.cons_append, scanWithin_cons_eq_ok]
      rw [scanWithin_cons_eq_ok] at scanned
      by_cases blank : Text.isBlank c
      · rw [if_pos blank] at scanned ⊢
        exact inductionHypothesis scanned
      · rw [if_neg blank] at scanned ⊢
        rcases scanned with ⟨token, behind, others, one, scannedBehind, rfl⟩
        exact ⟨token, _, _, scanOne_append apart one more, inductionHypothesis scannedBehind, rfl⟩

variable {text more : List Char} {tokens later : List Token}

theorem scan_append {stop : Char} (apart : setsApart stop = true)
    (scanned : scan text = .ok tokens) (scannedMore : scan (stop :: more) = .ok later) :
    scan (text ++ stop :: more) = .ok (tokens ++ later) := by
  unfold scan
  rw [List.length_append]
  exact scanWithin_append apart scanned scannedMore

/-- A blank in front is passed. -/
theorem scan_blank {c : Char} (blank : Text.isBlank c = true) (scanned : scan text = .ok tokens) :
    scan (c :: text) = .ok tokens := by
  unfold scan
  rw [List.length_cons, scanWithin_cons_eq_ok, if_pos blank]
  exact scanned

/-- A token of one character in front is taken. -/
theorem scan_token {c : Char} {token : Token} (dark : Text.isBlank c = false)
    (one : scanOne c text = .ok (token, text)) (scanned : scan text = .ok tokens) :
    scan (c :: text) = .ok (token :: tokens) := by
  unfold scan
  rw [List.length_cons, scanWithin_cons_eq_ok, if_neg (Bool.eq_false_iff.mp dark)]
  exact ⟨token, text, tokens, one, scanned, rfl⟩

/-- A quoted literal that ends with the text is the only token. -/
theorem scan_quoted {quote : Char} {content : List Char}
    (isQuote : quote = '"' ∨ quote = '\'' ∨ quote = '\x60')
    (closed : readQuoted? quote [] text = some (content, [])) :
    scan (quote :: text) = (ofQuoted quote content).map fun token => [token] := by
  have noName : isNameStart quote = false := by
    rcases isQuote with rfl | rfl | rfl <;> decide
  have noNumber : isNumberStart quote text = false := by
    rcases isQuote with rfl | rfl | rfl <;> rfl
  have dark : Text.isBlank quote = false := by
    rcases isQuote with rfl | rfl | rfl <;> decide
  have marks : (quote = '"' || quote = '\'' || quote = '\x60') = true := by
    simpa [or_assoc] using isQuote
  rw [scan, List.length_cons, scanWithin]
  simp only [scanOne, dark, noName, noNumber, marks, closed, Bool.false_eq_true, if_false, if_true]
  cases ofQuoted quote content with
  | error problem => rfl
  | ok token => exact bind_eq_ok.mpr ⟨_, rfl, bind_eq_ok.mpr ⟨[], scanWithin_nil _, rfl⟩⟩

/-- The tokens of two texts with a bar between them, set apart by blanks. -/
theorem scan_pipe (scanned : scan text = .ok tokens) (scannedMore : scan more = .ok later) :
    scan (text ++ [' ', '|', ' '] ++ more) = .ok (tokens ++ .pipe :: later) := by
  have fromBlank : scan (' ' :: more) = .ok later := scan_blank (by decide) scannedMore
  have fromBar : scan ('|' :: ' ' :: more) = .ok (.pipe :: later) :=
    scan_append (by decide) (show scan ['|'] = .ok [.pipe] from rfl) fromBlank
  rw [List.append_assoc]
  exact scan_append (by decide) scanned (scan_blank (by decide) fromBar)

end Token
end Query
end CharacterSheet
