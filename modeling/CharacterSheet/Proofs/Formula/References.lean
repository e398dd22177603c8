import CharacterSheet.Formula.Basic
import CharacterSheet.Proofs.Formula.Soundness
import Mathlib.Data.List.Find
import Mathlib.Data.List.TakeDrop

/-!
# What a formula reads

The keys of a formula are found by looking for `@` in its texts, whereas its
value is that of the expressions which the parser makes of them.  Both agree in
the direction that matters: the scanner of tokens stands at an `@` whenever it
makes a reference, and an expression refers only to keys that stand in the
tokens it is derived from.  Hence two indexes that give the same values to the
keys of a formula give the formula the same value.
-/

namespace CharacterSheet
namespace Formula

/-- Every key of the end of a text is a key of the text. -/
theorem keysIn_subset_of_suffix {ending text : List Char} (suffix : ending <:+ text) :
    keysIn ending ⊆ keysIn text := by
  rcases suffix with ⟨front, rfl⟩
  induction front with
  | nil => exact List.Subset.refl _
  | cons c front inductionHypothesis =>
    refine List.Subset.trans inductionHypothesis ?_
    rw [List.cons_append, keysIn]
    split
    · exact List.subset_cons_self _ _
    · exact List.Subset.refl _

/-- The key behind an `@` is a key of the text that begins with it. -/
theorem mem_keysIn_of_head {rest : List Char} (named : (rest.takeWhile isKeyChar).isEmpty = false) :
    String.ofList (rest.takeWhile isKeyChar) ∈ keysIn ('@' :: rest) := by
  rw [keysIn]
  simp [named]

namespace Token

theorem suffix_of_relation? {first : Char} {rest behind : List Char} {relation : Comparison}
    (found : relation? first rest = some (relation, behind)) : behind <:+ rest := by
  unfold relation? at found
  split at found
  all_goals cases found
  all_goals first
    | exact List.suffix_refl _
    | exact List.suffix_cons _ _

/-- A token leaves the end of the text behind, and if it is a reference, its
key is a key of the text. -/
theorem scanOne_spec {first : Char} {rest behind : List Char} {token : Token}
    (scanned : scanOne first rest = .ok (token, behind)) :
    behind <:+ rest ∧
      ∀ key, token = .reference key → key ∈ keysIn (first :: rest) := by
  unfold scanOne at scanned
  simp only [List.span_eq_takeWhile_dropWhile] at scanned
  split at scanned
  · rename_i digit
    rw [List.dropWhile_cons_of_pos digit] at scanned
    split at scanned
    · cases scanned
      exact ⟨List.dropWhile_suffix _, fun key same => by cases same⟩
    · cases scanned
  · split at scanned
    · rename_i sign
      subst sign
      split at scanned
      · cases scanned
      · rename_i named
        cases scanned
        refine ⟨List.dropWhile_suffix _, ?_⟩
        intro key same
        cases same
        exact mem_keysIn_of_head (Bool.eq_false_iff.mpr named)
    · split at scanned
      · rename_i letter
        have nameChar : isNameChar first = true := by
          simp only [isNameStart, isNameChar, Char.isAlphanum, Bool.or_eq_true] at letter ⊢
          rcases letter with alphabetic | underscore
          · exact Or.inl (Or.inl alphabetic)
          · exact Or.inr underscore
        rw [List.dropWhile_cons_of_pos nameChar] at scanned
        cases scanned
        exact ⟨List.dropWhile_suffix _, fun key same => by cases same⟩
      · split at scanned
        · rename_i found
          cases scanned
          exact ⟨suffix_of_relation? found, fun key same => by cases same⟩
        · split at scanned
          · rename_i symbol
            cases scanned
            refine ⟨List.suffix_refl _, ?_⟩
            rintro key rfl
            unfold ofSymbol? at symbol
            split at symbol <;> cases symbol
          · cases scanned

/-- The references among the tokens of a text have keys of the text. -/
theorem mem_keysIn_of_scanWithin {bound : Nat} {text : List Char} {tokens : List Token}
    {key : String} (scanned : scanWithin bound text = .ok tokens)
    (member : Token.reference key ∈ tokens) : key ∈ keysIn text := by
  induction bound generalizing text tokens with
  | zero =>
    cases text with
    | nil =>
      cases scanned
      cases member
    | cons c rest => cases scanned
  | succ bound inductionHypothesis =>
    cases text with
    | nil =>
      cases scanned
      cases member
    | cons c rest =>
      rw [scanWithin] at scanned
      split at scanned
      · exact keysIn_subset_of_suffix (List.suffix_cons c rest)
          (inductionHypothesis scanned member)
      · rcases bind_eq_ok.mp scanned with ⟨⟨token, behind⟩, one, next⟩
        rcases bind_eq_ok.mp next with ⟨more, others, result⟩
        cases result
        rcases scanOne_spec one with ⟨suffix, named⟩
        rcases List.mem_cons.mp member with here | later
        · exact named key here.symm
        · have below := inductionHypothesis others later
          exact keysIn_subset_of_suffix (suffix.trans (List.suffix_cons c rest)) below

end Token

namespace Grammar

theorem mem_separated {parts : List (List Token)} {part : List Token} {token : Token}
    (member : part ∈ parts) (inside : token ∈ part) : token ∈ separated parts := by
  induction parts with
  | nil => cases member
  | cons head rest inductionHypothesis =>
    cases rest with
    | nil =>
      rw [List.mem_singleton] at member
      subst member
      exact inside
    | cons next more =>
      rw [separated]
      rcases List.mem_cons.mp member with here | later
      · exact List.mem_append_left _ (here ▸ inside)
      · exact List.mem_append_right head (List.mem_cons_of_mem _ (inductionHypothesis later))

end Grammar

namespace Expression

mutual

/-- The keys that an expression refers to. -/
def keys : Expression → List String
  | number _ => []
  | reference key => [key]
  | negate operand => operand.keys
  | binary _ left right => left.keys ++ right.keys
  | call _ arguments => keysOfAll arguments

/-- The keys that arguments refer to. -/
def keysOfAll : List Expression → List String
  | [] => []
  | first :: rest => first.keys ++ keysOfAll rest

end

theorem mem_keysOfAll {key : String} {arguments : List Expression} :
    key ∈ keysOfAll arguments ↔ ∃ argument ∈ arguments, key ∈ argument.keys := by
  induction arguments with
  | nil => simp [keysOfAll]
  | cons first rest inductionHypothesis => simp [keysOfAll, inductionHypothesis]

/-- An expression refers only to keys of the tokens that spell it. -/
theorem reference_mem_of_derives {phrase : Grammar.Phrase} {tokens : List Token}
    {expression : Expression} {key : String}
    (derivation : Grammar.Derives phrase tokens expression) (member : key ∈ expression.keys) :
    Token.reference key ∈ tokens := by
  induction derivation with
  | operand _ only => exact only member
  | join _ _ _ earlier last =>
    rcases List.mem_append.mp member with inLeft | inRight
    · exact List.mem_append_left _ (earlier inLeft)
    · exact List.mem_append_right _ (List.mem_cons_of_mem _ (last inRight))
  | negated _ inner => exact List.mem_cons_of_mem _ (inner member)
  | affirmed _ inner => exact List.mem_cons_of_mem _ (inner member)
  | unsigned _ inner => exact inner member
  | raised _ _ lower upper =>
    rcases List.mem_append.mp member with inBase | inExponent
    · exact List.mem_append_left _ (lower inBase)
    · exact List.mem_append_right _ (List.mem_cons_of_mem _ (upper inExponent))
  | plain _ inner => exact inner member
  | number _ => cases member
  | reference _ =>
    rw [List.mem_singleton.mp member]
    exact List.mem_singleton.mpr rfl
  | group _ inner =>
    exact List.mem_cons_of_mem _ (List.mem_append_left _ (inner member))
  | @call function arguments _ _ each =>
    rcases mem_keysOfAll.mp member with ⟨argument, listed, inside⟩
    rcases List.mem_map.mp listed with ⟨part, part_mem, rfl⟩
    have within := Grammar.mem_separated (List.mem_map_of_mem part_mem) (each part part_mem inside)
    exact List.mem_cons_of_mem _
      (List.mem_cons_of_mem _ (List.mem_append_left _ within))

/-- An expression refers only to keys that stand in its text. -/
theorem mem_keysIn_of_parse {text : String} {expression : Expression} {key : String}
    (parsed : parse text = .ok expression) (member : key ∈ expression.keys) :
    key ∈ keysIn text.toList := by
  rcases bind_eq_ok.mp parsed with ⟨tokens, scanned, reading⟩
  have derivation := Grammar.derives_of_ofTokens reading
  exact Token.mem_keysIn_of_scanWithin scanned (reference_mem_of_derives derivation member)

variable {first second : Index}

mutual

/-- The value of an expression depends on the values under its keys. -/
theorem rawValue_congr : (expression : Expression) →
    (∀ key ∈ expression.keys, first.value key = second.value key) →
    expression.rawValue first = expression.rawValue second
  | number _, _ => rfl
  | reference key, agree => agree key List.mem_cons_self
  | negate operand, agree => by
    rw [rawValue, rawValue, rawValue_congr operand agree]
  | binary operation left right, agree => by
    have sameLeft := rawValue_congr left
      fun key member => agree key (List.mem_append_left right.keys member)
    have sameRight := rawValue_congr right
      fun key member => agree key (List.mem_append_right left.keys member)
    rw [rawValue, rawValue, sameLeft, sameRight]
  | call function arguments, agree => by
    rw [rawValue, rawValue, rawValues_congr arguments agree]

theorem rawValues_congr : (arguments : List Expression) →
    (∀ key ∈ keysOfAll arguments, first.value key = second.value key) →
    rawValues first arguments = rawValues second arguments
  | [], _ => rfl
  | argument :: rest, agree => by
    have same := rawValue_congr argument
      fun key member => agree key (List.mem_append_left _ member)
    have sameRest := rawValues_congr rest
      fun key member => agree key (List.mem_append_right argument.keys member)
    rw [rawValues, rawValues, same, sameRest]

end

end Expression

variable {first second : Index}

/-- The value of a text, if it has one, depends on the values under the keys
in the text. -/
theorem tryResolve_congr {text : String}
    (agree : ∀ key ∈ keysIn text.toList, first.value key = second.value key) :
    tryResolve text first = tryResolve text second := by
  unfold tryResolve
  cases parsed : Expression.parse text with
  | error problem => simp only [Except.map]
  | ok expression =>
    have same := expression.rawValue_congr fun key member =>
      agree key (Expression.mem_keysIn_of_parse parsed member)
    rw [Except.map, Except.map, Expression.evaluate, Expression.evaluate, same]

theorem resolve_congr {text : String}
    (agree : ∀ key ∈ keysIn text.toList, first.value key = second.value key) :
    resolve text first = resolve text second := by
  rw [resolve, resolve, tryResolve_congr agree]

/-- A key in one of the texts of a formula is a reference of the formula. -/
theorem mem_references {formula : Formula} {text key : String} (written : text ∈ formula.texts)
    (member : key ∈ keysIn text.toList) : key ∈ formula.references :=
  mem_firstOccurrences.mpr (List.mem_flatMap.mpr ⟨text, written, member⟩)

/-- A switch takes the same case where its keys have the same values. -/
theorem Switch.evaluate_congr {switch : Switch}
    (agree : ∀ key ∈ (Formula.switch switch).references, first.value key = second.value key) :
    switch.evaluate first = switch.evaluate second := by
  have ofText : ∀ text ∈ (Formula.switch switch).texts,
      ∀ key ∈ keysIn text.toList, first.value key = second.value key :=
    fun text written key member => agree key (mem_references written member)
  have subjectWritten : switch.subject ∈ (Formula.switch switch).texts :=
    List.mem_append_left _ List.mem_cons_self
  have caseWritten : ∀ choice ∈ switch.cases,
      ∀ text ∈ [choice.value, choice.result], text ∈ (Formula.switch switch).texts :=
    fun choice listed text written => List.mem_append_left _
      (List.mem_cons_of_mem _ (List.mem_flatMap.mpr ⟨choice, listed, written⟩))
  have sameChoice : (switch.cases.find? fun choice =>
        choice.matchesSubject switch.subject first) =
      switch.cases.find? fun choice => choice.matchesSubject switch.subject second := by
    apply List.find?_congr
    intro choice listed
    have valueWritten := caseWritten choice listed choice.value List.mem_cons_self
    rw [Case.matchesSubject, Case.matchesSubject, tryResolve_congr (ofText _ subjectWritten),
      tryResolve_congr (ofText _ valueWritten)]
  rw [Switch.evaluate, Switch.evaluate, sameChoice]
  cases chosen : switch.cases.find? fun choice =>
      choice.matchesSubject switch.subject second with
  | none => exact resolve_congr (ofText _ (List.mem_append_right _ (List.mem_singleton.mpr rfl)))
  | some choice =>
    have listed := List.mem_of_find?_eq_some chosen
    have resultWritten := caseWritten choice listed choice.result
      (List.mem_cons_of_mem _ List.mem_cons_self)
    exact resolve_congr (ofText _ resultWritten)

/-- The value of a formula depends on the values under its references. -/
theorem evaluate_congr {formula : Formula}
    (agree : ∀ key ∈ formula.references, first.value key = second.value key) :
    formula.evaluate first = formula.evaluate second := by
  cases formula with
  | plain expression =>
    exact resolve_congr fun key member =>
      agree key (mem_references (List.mem_singleton.mpr rfl) member)
  | switch switch => exact Switch.evaluate_congr agree

end Formula
end CharacterSheet
