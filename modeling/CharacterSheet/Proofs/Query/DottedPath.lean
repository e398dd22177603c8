import CharacterSheet.Filter.Evaluation
import CharacterSheet.Proofs.Query.Scanning
import CharacterSheet.Proofs.Text.Blank

/-!
# Field paths that are queries

Plain names with dots between them can be read in two ways.  As a field path
they are taken apart at the dots, and each part leads one step down.  As a
query they are scanned and parsed, and what results is a chain of members that
groups to the left.  Both lead to the same value: a plain name is never the
position of an item, and once a step leads nowhere, or to null, nothing is
found behind it either.

`parse_dottedPath` and `atPath?_dottedPath` say what each reading makes of the
path, and `foldlM_member?` that the steps of both agree.
-/

namespace CharacterSheet

/-! ## Taking a text apart -/

namespace Text

variable {mark : Char} {part : List Char}

theorem splitAtEach_of_not_mem (absent : mark ∉ part) : splitAtEach mark part = [part] := by
  induction part with
  | nil => rfl
  | cons c part inductionHypothesis =>
    rw [List.mem_cons, not_or] at absent
    rw [splitAtEach, if_neg (Ne.symm absent.1), inductionHypothesis absent.2]

theorem splitAtEach_append (absent : mark ∉ part) (rest : List Char) :
    splitAtEach mark (part ++ mark :: rest) = part :: splitAtEach mark rest := by
  induction part with
  | nil => rw [List.nil_append, splitAtEach, if_pos rfl]
  | cons c part inductionHypothesis =>
    rw [List.mem_cons, not_or] at absent
    rw [List.cons_append, splitAtEach, if_neg (Ne.symm absent.1), inductionHypothesis absent.2]

end Text

namespace Query

/-- A name that a query can have without quotes: a letter or an underscore, and
then letters, digits and underscores. -/
structure PlainName where
  first : Char
  rest : List Char
  starts : first.isAlpha = true ∨ first = '_'
  goesOn : ∀ c ∈ rest, c.isAlphanum = true ∨ c = '_'

namespace PlainName

def characters (name : PlainName) : List Char :=
  name.first :: name.rest

def text (name : PlainName) : String :=
  String.ofList name.characters

variable (name : PlainName)

theorem isNameStart_first : Token.isNameStart name.first = true := by
  simpa [Token.isNameStart] using name.starts

theorem isNameChar_of_mem {c : Char} (member : c ∈ name.characters) :
    Token.isNameChar c = true := by
  rcases List.mem_cons.mp member with rfl | later
  · rcases name.starts with letter | underscore
    · simp [Token.isNameChar, Char.isAlphanum, letter]
    · simp [Token.isNameChar, underscore]
  · simpa [Token.isNameChar] using name.goesOn c later

theorem dot_not_mem : '.' ∉ name.characters := by
  intro member
  exact absurd (name.isNameChar_of_mem member) (by decide)

theorem first_between : 65 ≤ name.first.toNat ∧ name.first.toNat ≤ 122 := by
  rcases name.starts with letter | underscore
  · -- A letter stands in one of two ranges.
    change (decide ('A'.val ≤ name.first.val ∧ name.first.val ≤ 'Z'.val) ||
      decide ('a'.val ≤ name.first.val) && decide (name.first.val ≤ 'z'.val)) = true at letter
    change 65 ≤ name.first.val.toNat ∧ name.first.val.toNat ≤ 122
    simp only [Bool.or_eq_true, Bool.and_eq_true, decide_eq_true_eq,
      UInt32.le_iff_toNat_le] at letter
    rcases letter with ⟨low, high⟩ | ⟨low, high⟩
    · exact ⟨low, Nat.le_trans high (by decide)⟩
    · exact ⟨Nat.le_trans (by decide) low, high⟩
  · rw [underscore]
    decide

theorem isBlank_first : Text.isBlank name.first = false :=
  Bool.eq_false_iff.mpr fun blank =>
    Text.not_between_of_isBlank blank 65 122 (by decide) name.first_between

/-- A plain name begins with no digit and no sign, so it is not a number. -/
theorem readNatBelow?_characters (bound : Nat) :
    Numeric.readNatBelow? bound name.characters = none := by
  have noDigit : name.first.isDigit = false := by
    refine Bool.eq_false_iff.mpr fun digit => ?_
    have low := name.first_between.1
    have high : name.first.toNat ≤ 57 := by
      simp only [Char.isDigit, Bool.and_eq_true, decide_eq_true_eq,
        UInt32.le_iff_toNat_le] at digit
      exact digit.2
    omega
  have noSign : name.first ≠ '+' := by
    intro sign
    exact absurd name.first_between (by rw [sign]; decide)
  unfold Numeric.readNatBelow? characters
  split
  · rename_i same
    exact absurd (List.cons.inj same).1 noSign
  · simp [noDigit]

end PlainName

/-- Names with dots between them. -/
def dottedPath (first : PlainName) (more : List PlainName) : String :=
  ".".intercalate ((first :: more).map PlainName.text)

/-- The characters of names with a dot before each. -/
def behindDots (names : List PlainName) : List Char :=
  names.flatMap fun name => '.' :: name.characters

theorem toList_dottedPath (first : PlainName) (more : List PlainName) :
    (dottedPath first more).toList = first.characters ++ behindDots more := by
  induction more generalizing first with
  | nil => simp [dottedPath, behindDots, PlainName.text]
  | cons second rest inductionHypothesis =>
    have later := inductionHypothesis second
    unfold dottedPath at later ⊢
    rw [List.map_cons, List.map_cons, String.intercalate_cons_cons, String.toList_append,
      String.toList_append, ← List.map_cons, later]
    simp [behindDots, PlainName.text]

theorem splitAtEach_dottedPath (first : PlainName) (more : List PlainName) :
    Text.splitAtEach '.' (dottedPath first more).toList =
      (first :: more).map PlainName.characters := by
  rw [toList_dottedPath]
  induction more generalizing first with
  | nil =>
    rw [behindDots, List.flatMap_nil, List.append_nil,
      Text.splitAtEach_of_not_mem first.dot_not_mem]
    rfl
  | cons second rest inductionHypothesis =>
    have shape : behindDots (second :: rest) =
        '.' :: (second.characters ++ behindDots rest) := by
      rw [behindDots, List.flatMap_cons, List.cons_append]
      rfl
    rw [shape, Text.splitAtEach_append first.dot_not_mem, inductionHypothesis]
    rfl

/-! ## Reading the path as a query -/

/-- The tokens of names with a dot before each. -/
def steps (names : List PlainName) : List Token :=
  names.flatMap fun name => [.dot, .name name.text]

/-- The chain that leads from what is found on along some names. -/
def along (left : Expression) (names : List PlainName) : Expression :=
  names.foldl (fun left name => .chain left (.field name.text)) left

namespace Token

/-- A plain name in front is one token, as long as no character that may be
part of a name follows. -/
theorem scan_name (name : PlainName) {behind : List Char} {tokens : List Token}
    (ends : ∀ c ∈ behind.head?, isNameChar c = false) (scanned : scan behind = .ok tokens) :
    scan (name.characters ++ behind) = .ok (.name name.text :: tokens) := by
  have passed : (name.characters ++ behind).span isNameChar = (name.characters, behind) := by
    have inside : ∀ c ∈ name.characters, isNameChar c = true := fun _ => name.isNameChar_of_mem
    have outside : behind.takeWhile isNameChar = [] ∧ behind.dropWhile isNameChar = behind := by
      cases behind with
      | nil => exact ⟨rfl, rfl⟩
      | cons c rest => simp [ends c rfl]
    rw [List.span_eq_takeWhile_dropWhile, List.takeWhile_append_of_pos inside,
      List.dropWhile_append_of_pos inside, outside.1, outside.2, List.append_nil]
  have one : scanOne name.first (name.rest ++ behind) = .ok (.name name.text, behind) := by
    rw [scanOne, if_pos name.isNameStart_first, ← List.cons_append]
    dsimp only
    rw [show name.first :: name.rest = name.characters from rfl, passed]
    rfl
  have bound : behind.length ≤ (name.rest ++ behind).length := by
    rw [List.length_append]
    exact Nat.le_add_left _ _
  unfold scan
  rw [PlainName.characters, List.cons_append, List.length_cons, scanWithin_cons_eq_ok,
    if_neg (Bool.eq_false_iff.mp name.isBlank_first)]
  exact ⟨_, behind, tokens, one, scanWithin_mono scanned bound, rfl⟩

theorem head?_behindDots (names : List PlainName) :
    ∀ c ∈ (behindDots names).head?, isNameChar c = false := by
  cases names with
  | nil => exact fun c first => by cases first
  | cons name rest =>
    intro c first
    cases first
    decide

theorem scan_behindDots (names : List PlainName) : scan (behindDots names) = .ok (steps names) := by
  induction names with
  | nil => rfl
  | cons name rest inductionHypothesis =>
    exact scan_token (by decide) rfl (scan_name name (head?_behindDots rest) inductionHypothesis)

end Token

theorem Token.scan_dottedPath (first : PlainName) (more : List PlainName) :
    Token.scan (dottedPath first more).toList = .ok (.name first.text :: steps more) := by
  rw [toList_dottedPath]
  exact Token.scan_name first (Token.head?_behindDots more) (Token.scan_behindDots more)

namespace Parser

variable {total depth power : Nat} {name : PlainName} {names : List PlainName}
  {left : Expression}

/-- Names with dots before them do not call what stands before them. -/
theorem operand_name :
    operand total (depth + 1) (.name name.text :: steps names) =
      .ok (.field name.text, steps names) := by
  cases names with
  | nil => simp only [steps, List.flatMap_nil, operand]
  | cons second rest => simp only [steps, List.flatMap_cons, List.cons_append, operand]

/-- Behind a dot stands one name, because a dot does not bind what follows
another dot. -/
theorem extension_dot :
    extension total (depth + 5) left .dot (.name name.text :: steps names) =
      .ok (.chain left (.field name.text), steps names) := by
  have stops : extended total (depth + 2) (bindingPower .dot) (.field name.text) (steps names) =
      .ok (.field name.text, steps names) := by
    cases names with
    | nil => simp only [steps, List.flatMap_nil, extended]
    | cons second rest =>
      simp only [steps, List.flatMap_cons, List.cons_append, extended, Nat.lt_irrefl, if_false]
  simp only [extension, named, expression, operand_name, bind, Except.bind, stops, pure,
    Except.pure]

theorem extended_steps (names : List PlainName) (left : Expression) :
    extended total (depth + names.length + 6) 0 left (steps names) =
      .ok (along left names, []) := by
  induction names generalizing left with
  | nil => simp only [steps, List.flatMap_nil, extended, along, List.foldl_nil]
  | cons name rest inductionHypothesis =>
    have shape : steps (name :: rest) = .dot :: .name name.text :: steps rest := rfl
    have count : depth + (name :: rest).length + 6 = depth + rest.length + 6 + 1 := by
      rw [List.length_cons]
      omega
    have taken : extension total (depth + rest.length + 6) left .dot
        (.name name.text :: steps rest) = .ok (.chain left (.field name.text), steps rest) :=
      extension_dot
    rw [shape, count, extended, if_pos (by decide), taken]
    exact inductionHypothesis _

theorem expression_steps (first : PlainName) (more : List PlainName) :
    expression total (depth + more.length + 7) 0 (.name first.text :: steps more) =
      .ok (along (.field first.text) more, []) := by
  simp only [expression, operand_name, bind, Except.bind, extended_steps]

end Parser

theorem length_le_length_steps (names : List PlainName) : names.length ≤ (steps names).length := by
  induction names with
  | nil => exact Nat.le_refl 0
  | cons name rest inductionHypothesis =>
    exact Nat.le_succ_of_le (Nat.succ_le_succ inductionHypothesis)

/-- As a query, a dotted path is the chain of its names. -/
theorem parse_dottedPath (first : PlainName) (more : List PlainName) :
    Expression.parse (dottedPath first more) = .ok (along (.field first.text) more) := by
  have enough : more.length + 7 ≤
      Parser.depthBound (Token.name first.text :: steps more).length := by
    have shorter := length_le_length_steps more
    rw [Parser.depthBound, List.length_cons]
    omega
  obtain ⟨depth, bound⟩ := Nat.exists_eq_add_of_le' enough
  simp only [Expression.parse, Token.scan_dottedPath, bind, Except.bind, Expression.ofTokens,
    bound, ← Nat.add_assoc, Parser.expression_steps]
  rfl

/-! ## What both readings find -/

/-- What names lead to one after the other, and null if they lead nowhere. -/
def reached (value : Json) (names : List PlainName) : Json :=
  names.foldl (fun found name => (found.member? name.text).getD .null) value

theorem reached_null (names : List PlainName) : reached .null names = .null := by
  induction names with
  | nil => rfl
  | cons name rest inductionHypothesis => exact inductionHypothesis

/-- One step of a field path along a plain name leads to a member. -/
theorem step?_characters (value : Json) (name : PlainName) :
    value.step? name.characters = value.member? name.text := by
  cases value with
  | arr items =>
    rw [Json.step?, name.readNatBelow?_characters]
    rfl
  | _ => rfl

/-- A field path ends at the first step that leads nowhere. -/
theorem foldlM_member? (names : List PlainName) (value : Json) :
    (names.foldlM (fun (found : Json) name => found.member? name.text) value).getD .null =
      reached value names := by
  induction names generalizing value with
  | nil => rfl
  | cons name rest inductionHypothesis =>
    rw [List.foldlM_cons, reached, List.foldl_cons, ← reached]
    cases value.member? name.text with
    | some found => exact inductionHypothesis found
    | none => exact (reached_null rest).symm

theorem atPath?_dottedPath (value : Json) (first : PlainName) (more : List PlainName) :
    (value.atPath? (dottedPath first more)).getD .null = reached value (first :: more) := by
  rw [Json.atPath?, splitAtEach_dottedPath, List.foldlM_map, ← foldlM_member?]
  simp only [step?_characters]

/-- A chain goes on from what is found before, also if that is null, because
null has no members. -/
theorem search_along (left : Expression) (names : List PlainName) (data : Json) :
    (along left names).search data = reached (left.search data) names := by
  induction names generalizing left with
  | nil => rfl
  | cons name rest inductionHypothesis =>
    have step : (Expression.chain left (.field name.text)).search data =
        ((left.search data).member? name.text).getD .null := by
      rw [Expression.search]
      cases left.search data <;> rfl
    rw [along, List.foldl_cons, ← along, inductionHypothesis, step]
    rfl

theorem search_dottedPath (first : PlainName) (more : List PlainName) (data : Json) :
    (along (.field first.text) more).search data = reached data (first :: more) := by
  rw [search_along]
  rfl

end Query

namespace PropertyCondition

open Query

variable (first : PlainName) (more : List PlainName) (operator : Filter.Operator)
  (expected view : Json) (index : Index)

/-- What names lead to, unless it is null. -/
def reached? (view : Json) (names : List PlainName) : Option Json :=
  (some (reached view names)).filter fun value => !value.isNull

/-- A value that is missing and one that is null are the same to a condition. -/
theorem filter_isNull (found : Option Json) :
    (found.filter fun value => !value.isNull) =
      (some (found.getD .null)).filter fun value => !value.isNull := by
  cases found <;> rfl

theorem actualValue?_onField_dottedPath :
    (onField (dottedPath first more) operator expected).actualValue? view =
      reached? view (first :: more) := by
  simp only [actualValue?, onField]
  rw [filter_isNull, atPath?_dottedPath, reached?]

theorem actualValue?_onQuery_dottedPath :
    (onQuery (dottedPath first more) operator expected).actualValue? view =
      reached? view (first :: more) := by
  simp only [actualValue?, onQuery, parse_dottedPath, search_dottedPath, reached?]

theorem actual_evaluate (condition : PropertyCondition) :
    (condition.evaluate view index).actual = condition.actualValue? view := by
  unfold evaluate
  split <;> rfl

/-- A condition judges what the names of a dotted path lead to in the same way,
with the same outcome in all its parts, whether the path is given as a field
path or as a query. -/
theorem evaluate_dottedPath :
    (onField (dottedPath first more) operator expected).evaluate view index =
        (onQuery (dottedPath first more) operator expected).evaluate view index ∧
      ((onField (dottedPath first more) operator expected).evaluate view index).actual =
        reached? view (first :: more) := by
  constructor
  · unfold evaluate
    rw [actualValue?_onField_dottedPath, actualValue?_onQuery_dottedPath]
    rfl
  · rw [actual_evaluate, actualValue?_onField_dottedPath]

end PropertyCondition
end CharacterSheet
