import CharacterSheet.Proofs.Json.Parsing
import CharacterSheet.Proofs.Query.Pipe
import CharacterSheet.Proofs.Text.Blank

/-!
# JSON literals in queries

A JSON text between backticks is scanned like every quoted literal: a backslash
makes the next character stand for itself.  The JSON reader therefore gets the
text without its backslashes.  `means_iff` says that the literal finds the
value of the text if and only if what is left is a text of the same value.  It
is if the text has no escapes but those of slashes.
-/

namespace CharacterSheet

namespace Query

/-- What a quoted text stands for: a backslash makes the next character stand
for itself. -/
def unescaped : List Char → List Char
  | [] => []
  | '\\' :: c :: rest => c :: unescaped rest
  | c :: rest => c :: unescaped rest

/-- Every backslash stands before a slash. -/
def EscapesSlashes (text : List Char) : Prop :=
  ∀ before after, text = before ++ '\\' :: after → after.head? = some '/'

/-- The query that consists of a text between backticks. -/
def literalText (text : List Char) : String :=
  String.ofList ('\x60' :: (text ++ ['\x60']))

/-- A text between backticks is a query that finds a value in everything. -/
def Means (text : List Char) (value : Json) : Prop :=
  ∃ query, Expression.parse (literalText text) = .ok query ∧ ∀ data, query.search data = value

/-! ## What is left of a text -/

section

variable {text : List Char}

theorem unescaped_cons {c : Char} (plain : c ≠ '\\') (rest : List Char) :
    unescaped (c :: rest) = c :: unescaped rest := by
  rw [unescaped]
  rintro _ _ rfl
  exact absurd rfl plain

theorem unescaped_of_plain (plain : '\\' ∉ text) : unescaped text = text := by
  induction text with
  | nil => rfl
  | cons c rest inductionHypothesis =>
    rw [List.mem_cons, not_or] at plain
    rw [unescaped_cons (Ne.symm plain.1), inductionHypothesis plain.2]

theorem unescaped_append (last : text.getLast? ≠ some '\\') (more : List Char) :
    unescaped (text ++ more) = unescaped text ++ unescaped more := by
  fun_induction unescaped text with
  | case1 => rfl
  | case2 c rest inductionHypothesis =>
    rw [List.cons_append, List.cons_append, unescaped, List.cons_append]
    cases rest with
    | nil => rfl
    | cons d rest => rw [inductionHypothesis (by simpa [List.getLast?_cons] using last)]
  | case3 c rest noEscape inductionHypothesis =>
    cases rest with
    | nil =>
      have plain : c ≠ '\\' := by
        rintro rfl
        exact last rfl
      exact unescaped_cons plain more
    | cons d rest =>
      have plain : c ≠ '\\' := fun same => noEscape d rest same rfl
      rw [List.cons_append, unescaped_cons plain,
        inductionHypothesis (by simpa [List.getLast?_cons] using last), List.cons_append]

/-- The last character stays. -/
theorem getLast?_unescaped (text : List Char) : (unescaped text).getLast? = text.getLast? := by
  fun_induction unescaped text with
  | case1 => rfl
  | case2 c rest inductionHypothesis =>
    rw [List.getLast?_cons, inductionHypothesis, List.getLast?_cons, List.getLast?_cons]
    rfl
  | case3 c rest noEscape inductionHypothesis =>
    rw [List.getLast?_cons, inductionHypothesis, List.getLast?_cons]

/-- The closing quote is found, and the text before it is read. -/
theorem readQuoted?_unescaped {quote : Char} (absent : quote ∉ text) (isQuote : quote ≠ '\\')
    (last : text.getLast? ≠ some '\\') (seen more : List Char) :
    Token.readQuoted? quote seen (text ++ quote :: more) =
      some (seen.reverse ++ unescaped text, more) := by
  fun_induction unescaped text generalizing seen with
  | case1 =>
    rw [List.nil_append, Token.readQuoted?_cons isQuote, if_pos rfl, List.append_nil]
  | case2 c rest inductionHypothesis =>
    have stays : rest.getLast? ≠ some '\\' := by
      cases rest with
      | nil => simp
      | cons d rest => simpa [List.getLast?_cons] using last
    simp only [List.mem_cons, not_or] at absent
    rw [List.cons_append, List.cons_append, Token.readQuoted?,
      inductionHypothesis absent.2.2 stays]
    simp
  | case3 c rest noEscape inductionHypothesis =>
    have plain : c ≠ '\\' := by
      rintro rfl
      cases rest with
      | nil => exact last rfl
      | cons d rest => exact noEscape d rest rfl rfl
    have stays : rest.getLast? ≠ some '\\' := by
      cases rest with
      | nil => simp
      | cons d rest => simpa [List.getLast?_cons] using last
    simp only [List.mem_cons, not_or] at absent
    rw [List.cons_append, Token.readQuoted?_cons plain, if_neg (Ne.symm absent.1),
      inductionHypothesis absent.2 stays]
    simp

/-- The token of the literal is the only one. -/
theorem scan_literalText (absent : '\x60' ∉ text) (last : text.getLast? ≠ some '\\') :
    Token.scan (literalText text).toList =
      (Token.ofQuoted '\x60' (unescaped text)).map fun token => [token] := by
  have closed := readQuoted?_unescaped absent (by decide) last [] []
  rw [List.reverse_nil, List.nil_append] at closed
  rw [literalText, String.toList_ofList]
  exact Token.scan_quoted (Or.inr (Or.inr rfl)) closed

/-- The literal is read from what is left of its text. -/
theorem parse_literalText (absent : '\x60' ∉ text) (last : text.getLast? ≠ some '\\') :
    Expression.parse (literalText text) =
      match Json.parse? (Text.trim (unescaped text)) with
      | some value => .ok (.literal value)
      | none => .error .invalidLiteral := by
  have quoted : Token.ofQuoted '\x60' (unescaped text) =
      match Json.parse? (Text.trim (unescaped text)) with
      | some value => .ok (.literal value)
      | none => .error .invalidLiteral := rfl
  rw [Expression.parse, scan_literalText absent last, quoted]
  cases Json.parse? (Text.trim (unescaped text)) with
  | none => rfl
  | some value =>
    refine bind_eq_ok.mpr ⟨[.literal value], rfl, Expression.ofTokens_single ?_⟩
    rw [Parser.operand]

/-- The literal stands for the value of what is left of its text. -/
theorem means_iff_unescaped {value : Json} (absent : '\x60' ∉ text)
    (last : text.getLast? ≠ some '\\') :
    Means text value ↔ Json.parse? (Text.trim (unescaped text)) = some value := by
  rw [Means, parse_literalText absent last]
  cases Json.parse? (Text.trim (unescaped text)) with
  | none =>
    constructor
    · rintro ⟨query, ⟨⟩, -⟩
    · rintro ⟨⟩
  | some found =>
    constructor
    · rintro ⟨query, ⟨⟩, finds⟩
      exact congrArg some (finds .null)
    · rintro ⟨⟩
      exact ⟨.literal value, rfl, fun data => rfl⟩

end

/-! ## Texts with no escapes but those of slashes -/

section

open Json.Grammar

variable {text more : List Char}

theorem EscapesSlashes.behind (slashes : EscapesSlashes (text ++ more)) : EscapesSlashes more :=
  fun before after same => slashes (text ++ before) after (by rw [same, List.append_assoc])

theorem EscapesSlashes.tail {c : Char} (slashes : EscapesSlashes (c :: more)) :
    EscapesSlashes more :=
  behind (show EscapesSlashes ([c] ++ more) from slashes)

theorem EscapesSlashes.before (slashes : EscapesSlashes (text ++ more))
    (last : text.getLast? ≠ some '\\') : EscapesSlashes text := by
  rintro before after rfl
  have next := slashes before (after ++ more) (by simp)
  cases after with
  | nil => exact absurd (by simp) last
  | cons c after => exact next

theorem last_of_endsWritten (written : EndsWritten text) : text.getLast? ≠ some '\\' := by
  rcases written with ⟨front, c, rfl, ending⟩
  rw [List.getLast?_concat]
  rintro ⟨⟩
  exact absurd ending (by decide)

theorem unescaped_gap {gap : List Char} (isGap : IsGap gap) (more : List Char) :
    unescaped (gap ++ more) = gap ++ unescaped more := by
  have absent : '\\' ∉ gap := fun member => absurd (isGap _ member) (by decide)
  have last : gap.getLast? ≠ some '\\' := fun last => absent (List.mem_of_getLast? last)
  rw [unescaped_append last, unescaped_of_plain absent]

theorem writesString_unescaped {content : List Char} (writes : WritesString text content)
    (slashes : EscapesSlashes text) : WritesString (unescaped text) content := by
  induction writes with
  | closed => exact .closed
  | @plain c text content printable noQuote noEscape _ inductionHypothesis =>
    rw [unescaped_cons noEscape]
    exact .plain printable noQuote noEscape (inductionHypothesis (slashes.tail))
  | @letter letter c text content escapes _ inductionHypothesis =>
    obtain rfl : letter = '/' := Option.some.inj (slashes [] _ rfl)
    cases escapes
    rw [unescaped]
    exact .plain (by decide) (by decide) (by decide)
      (inductionHypothesis (slashes.tail.tail))
  | unit => exact absurd (slashes [] _ rfl) (by simp)
  | pair => exact absurd (slashes [] _ rfl) (by simp)

theorem not_mem_of_writesNumber {number : Number} (writes : WritesNumber text number) :
    '\\' ∉ text := by
  have digits {digits : List Char} (isDigit : ∀ c ∈ digits, c.isDigit = true) : '\\' ∉ digits :=
    fun member => absurd (isDigit _ member) (by decide)
  cases writes with
  | parts signs isWhole isDigit behindPoint raised =>
    simp only [List.mem_append, not_or]
    refine ⟨?_, digits isDigit, ?_, ?_⟩
    · cases signs <;> decide
    · cases behindPoint with
      | absent => exact List.not_mem_nil
      | present _ isDigit => simpa using digits isDigit
    · cases raised with
      | absent => exact List.not_mem_nil
      | present marks signs _ isDigit =>
        simp only [List.mem_cons, List.mem_append, not_or]
        refine ⟨?_, ?_, digits isDigit⟩
        · rcases marks with rfl | rfl <;> decide
        · cases signs <;> decide

/-- A text without escapes but those of slashes writes the same without its
backslashes. -/
theorem writes_unescaped {depth : Nat} {content : Content} (writes : Writes depth text content)
    (slashes : EscapesSlashes text) : Writes depth (unescaped text) content := by
  induction writes with
  | @spaced depth c text content separator inner inductionHypothesis =>
    have plain : c ≠ '\\' := by
      rintro rfl
      exact absurd separator (by decide)
    rw [unescaped_cons plain]
    exact .spaced separator (inductionHypothesis (slashes.tail))
  | null => exact .null
  | yes => exact .yes
  | no => exact .no
  | number inner =>
    rw [unescaped_of_plain (not_mem_of_writesNumber inner)]
    exact .number inner
  | string inner =>
    rw [unescaped_cons (by decide)]
    exact .string (writesString_unescaped inner (slashes.tail))
  | noItems isGap =>
    rw [unescaped_cons (by decide), unescaped_gap isGap]
    exact .noItems isGap
  | array inner inductionHypothesis =>
    rw [unescaped_cons (by decide)]
    exact .array (inductionHypothesis (slashes.tail))
  | noMembers isGap =>
    rw [unescaped_cons (by decide), unescaped_gap isGap]
    exact .noMembers isGap
  | object inner inductionHypothesis =>
    rw [unescaped_cons (by decide)]
    exact .object (inductionHypothesis (slashes.tail))
  | @lastItem depth text gap item inner isGap inductionHypothesis =>
    have last := last_of_endsWritten inner.endsWritten
    rw [unescaped_append last, unescaped_gap isGap]
    exact .lastItem (inductionHypothesis (slashes.before last)) isGap
  | @item depth text gap more item items inner isGap behind inductionHypothesis restHypothesis =>
    have last := last_of_endsWritten inner.endsWritten
    rw [unescaped_append last, unescaped_gap isGap, unescaped_cons (by decide)]
    exact .item (inductionHypothesis (slashes.before last)) isGap
      (restHypothesis (slashes.behind.behind.tail))
  | @lastMember depth quoted name before text after value named gapBefore inner gapAfter
      inductionHypothesis =>
    have lastName := last_of_endsWritten named.endsWritten
    have last := last_of_endsWritten inner.endsWritten
    have fromName := slashes.tail
    have fromValue := fromName.behind.behind.tail
    rw [unescaped_cons (by decide), unescaped_append lastName, unescaped_gap gapBefore,
      unescaped_cons (by decide), unescaped_append last, unescaped_gap gapAfter]
    exact .lastMember (writesString_unescaped named (fromName.before lastName)) gapBefore
      (inductionHypothesis (fromValue.before last)) gapAfter
  | @member depth quoted name before text after more value members named gapBefore inner gapAfter
      behind inductionHypothesis restHypothesis =>
    have lastName := last_of_endsWritten named.endsWritten
    have last := last_of_endsWritten inner.endsWritten
    have fromName := slashes.tail
    have fromValue := fromName.behind.behind.tail
    rw [unescaped_cons (by decide), unescaped_append lastName, unescaped_gap gapBefore,
      unescaped_cons (by decide), unescaped_append last, unescaped_gap gapAfter,
      unescaped_cons (by decide)]
    exact .member (writesString_unescaped named (fromName.before lastName)) gapBefore
      (inductionHypothesis (fromValue.before last)) gapAfter
      (restHypothesis (fromValue.behind.behind.tail))

end

/-! ## What literals mean -/

section

open Json.Grammar

variable {text : List Char} {value : Json}

theorem isBlank_of_isSeparator {c : Char} (separator : Json.isSeparator c = true) :
    Text.isBlank c = true := by
  simp only [Json.isSeparator, Bool.or_eq_true, decide_eq_true_eq] at separator
  rcases separator with ((rfl | rfl) | rfl) | rfl <;> decide

theorem isBlank_of_begins {c : Char} (beginning : begins c = true) : Text.isBlank c = false := by
  rcases Bool.or_eq_true_iff.mp beginning with listed | digit
  · have dark : ['[', '\x7b', '"', 't', 'f', 'n', '-'].any Text.isBlank = false := by decide
    exact Bool.eq_false_iff.mpr (List.any_eq_false.mp dark c (List.contains_iff_mem.mp listed))
  · exact Text.isBlank_of_isDigit digit

theorem isBlank_of_ends {c : Char} (ending : ends c = true) : Text.isBlank c = false := by
  rcases Bool.or_eq_true_iff.mp ending with listed | digit
  · have dark : ['l', 'e', '"', ']', '\x7d'].any Text.isBlank = false := by decide
    exact Bool.eq_false_iff.mpr (List.any_eq_false.mp dark c (List.contains_iff_mem.mp listed))
  · exact Text.isBlank_of_isDigit digit

/-- Without its backslashes, a JSON text has the same separators around it. -/
theorem exists_core (writes : Json.parse? text = some value) :
    ∃ before c core after, text = before ++ (c :: core ++ after) ∧
      unescaped text = before ++ (c :: unescaped core ++ after) ∧ IsGap before ∧ IsGap after ∧
      begins c = true ∧ EndsWritten (c :: core) ∧ EndsWritten (c :: unescaped core) ∧
      Writes Json.maxDepth (c :: core) (.value value) := by
  rcases Json.parse?_eq_some_iff.mp writes with ⟨part, after, rfl, written, gapAfter⟩
  rcases written.exists_gap with ⟨before, c, core, rfl, gapBefore, beginning, inner⟩
  have plain : c ≠ '\\' := by
    rintro rfl
    exact absurd beginning (by decide)
  have last := last_of_endsWritten inner.endsWritten
  have kept := unescaped_gap gapAfter []
  rw [unescaped, List.append_nil] at kept
  refine ⟨before, c, core, after, List.append_assoc .., ?_, gapBefore, gapAfter, beginning,
    inner.endsWritten, ?_, inner⟩
  · rw [List.append_assoc, unescaped_gap gapBefore, unescaped_append last, unescaped_cons plain,
      kept]
  · rcases inner.endsWritten with ⟨front, d, same, ending⟩
    have lastStays := getLast?_unescaped (c :: core)
    rw [unescaped_cons plain, same, List.getLast?_concat] at lastStays
    rcases List.getLast?_eq_some_iff.mp lastStays with ⟨front, split⟩
    exact ⟨front, d, split, ending⟩

theorem last_of_parse (writes : Json.parse? text = some value) : text.getLast? ≠ some '\\' := by
  rcases exists_core writes with ⟨before, c, core, after, rfl, -, -, gapAfter, -, written, -⟩
  rcases after.eq_nil_or_concat with rfl | ⟨gap, last, rfl⟩
  · rw [List.append_nil]
    exact last_of_endsWritten (written.append before)
  · rw [List.concat_eq_append, ← List.append_assoc, ← List.append_assoc, List.getLast?_concat]
    rintro ⟨⟩
    exact absurd (gapAfter '\\' (by simp)) (by decide)

/-- Blanks around what is left of a JSON text do not matter. -/
theorem parse?_trim_unescaped {read : Json} (writes : Json.parse? text = some value) :
    Json.parse? (Text.trim (unescaped text)) = some read ↔
      Json.parse? (unescaped text) = some read := by
  rcases exists_core writes with
    ⟨before, c, core, after, rfl, left, gapBefore, gapAfter, beginning, -, written, -⟩
  have first : ∀ d ∈ (c :: unescaped core).head?, Text.isBlank d = false := by
    rintro _ ⟨⟩
    exact isBlank_of_begins beginning
  have last : ∀ d ∈ (c :: unescaped core).getLast?, Text.isBlank d = false := by
    rcases written with ⟨front, d, split, ending⟩
    rw [split, List.getLast?_concat]
    rintro _ ⟨⟩
    exact isBlank_of_ends ending
  rw [left, Json.parse?_gaps gapBefore gapAfter (begins_spec beginning).1 written,
    Text.trim_append (fun d member => isBlank_of_isSeparator (gapBefore d member))
      (fun d member => isBlank_of_isSeparator (gapAfter d member)) first last (List.cons_ne_nil _ _)]

theorem parse?_unescaped_of_escapesSlashes (writes : Json.parse? text = some value)
    (slashes : EscapesSlashes text) : Json.parse? (unescaped text) = some value := by
  rcases exists_core writes with
    ⟨before, c, core, after, rfl, left, gapBefore, gapAfter, beginning, ending, written, inner⟩
  have plain : c ≠ '\\' := by
    rintro rfl
    exact absurd beginning (by decide)
  have kept := writes_unescaped inner (slashes.behind.before (last_of_endsWritten ending))
  rw [unescaped_cons plain] at kept
  rw [left, Json.parse?_gaps gapBefore gapAfter (begins_spec beginning).1 written,
    Json.parse?_eq_some_iff]
  exact ⟨_, [], (List.append_nil _).symm, kept, List.forall_mem_nil _⟩

/-- A JSON text between backticks finds its value in everything if and only if
it is a text of this value without its backslashes as well.  It is if all of
its backslashes stand before slashes. -/
theorem means_iff (writes : Json.parse? text = some value) (absent : '\x60' ∉ text) :
    (Means text value ↔ Json.parse? (unescaped text) = some value) ∧
      (EscapesSlashes text → Means text value) := by
  have exactly : Means text value ↔ Json.parse? (unescaped text) = some value :=
    (means_iff_unescaped absent (last_of_parse writes)).trans (parse?_trim_unescaped writes)
  exact ⟨exactly, fun slashes =>
    exactly.mpr (parse?_unescaped_of_escapesSlashes writes slashes)⟩

/-- An escaped slash keeps its meaning. -/
theorem means_iff_slash :
    Json.parse? ['"', '\\', '/', '"'] = some (.str "/") ∧ '\x60' ∉ ['"', '\\', '/', '"'] ∧
      EscapesSlashes ['"', '\\', '/', '"'] ∧ Means ['"', '\\', '/', '"'] (.str "/") := by
  have writes : Json.parse? ['"', '\\', '/', '"'] = some (.str "/") := by
    with_unfolding_all rfl
  have absent : '\x60' ∉ ['"', '\\', '/', '"'] := by decide
  have slashes : EscapesSlashes ['"', '\\', '/', '"'] := by
    intro before after same
    simp only [List.cons_eq_append_iff] at same
    simp_all
  exact ⟨writes, absent, slashes, (means_iff writes absent).2 slashes⟩

/-- With an escaped quote, a JSON text is no literal. -/
theorem not_means_quote :
    Json.parse? ['"', '\\', '"', '"'] = some (.str "\"") ∧ '\x60' ∉ ['"', '\\', '"', '"'] ∧
      ¬Means ['"', '\\', '"', '"'] (.str "\"") := by
  have absent : '\x60' ∉ ['"', '\\', '"', '"'] := by decide
  refine ⟨by with_unfolding_all rfl, absent, fun means => ?_⟩
  have read := (means_iff_unescaped absent (by decide)).mp means
  have refused : Json.parse? (Text.trim (unescaped ['"', '\\', '"', '"'])) = none := by
    with_unfolding_all rfl
  rw [refused] at read
  cases read

end

end Query
end CharacterSheet
