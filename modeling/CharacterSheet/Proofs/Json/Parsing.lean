import CharacterSheet.Proofs.Json.Literals
import CharacterSheet.Proofs.Text.Blank

/-!
# Reading JSON values

`parse?_eq_some_iff` says that the reader accepts the texts of the grammar,
with any separators behind them, and no others.  Reading what is written takes
at most two steps for each character, so the reader always has enough.
-/

namespace CharacterSheet
namespace Json
namespace Grammar

/-- The characters with which values and members begin. -/
def begins (c : Char) : Bool :=
  ['[', '\x7b', '"', 't', 'f', 'n', '-'].contains c || c.isDigit

theorem begins_spec {c : Char} (beginning : begins c = true) :
    isSeparator c = false ∧ c ≠ ']' ∧ c ≠ '\x7d' := by
  have different : ∀ other ∈ [' ', '\n', '\t', '\r', ']', '\x7d'], c ≠ other :=
    Text.ne_of_lacking begins beginning (by decide)
  simp only [List.forall_mem_cons] at different
  simp [isSeparator, different]

theorem begins_of_isDigit {c : Char} (digit : c.isDigit = true) : begins c = true := by
  simp [begins, digit]

theorem WritesNumber.head {text : List Char} {number : Number} (writes : WritesNumber text number) :
    ∃ c rest, text = c :: rest ∧ (c = '-' ∨ c.isDigit = true) := by
  cases writes with
  | parts signs isWhole isDigit =>
    rcases exists_head_of_digits (ne_nil_of_isWholePart isWhole) isDigit with ⟨c, rest, rfl, digit⟩
    cases signs with
    | absent => exact ⟨c, _, rfl, .inr digit⟩
    | present => exact ⟨'-', _, rfl, .inl rfl⟩

/-- Behind a gap, what is written begins with a character that tells what it
is. -/
theorem Writes.exists_gap {depth : Nat} {text : List Char} {content : Content}
    (writes : Writes depth text content) :
    ∃ gap c rest, text = gap ++ c :: rest ∧ IsGap gap ∧ begins c = true ∧
      Writes depth (c :: rest) content := by
  have noGap : IsGap [] := List.forall_mem_nil _
  induction writes with
  | spaced separator _ inductionHypothesis =>
    rcases inductionHypothesis with ⟨gap, c, rest, rfl, isGap, beginning, inner⟩
    exact ⟨_ :: gap, c, rest, rfl, List.forall_mem_cons.mpr ⟨separator, isGap⟩, beginning, inner⟩
  | number inner =>
    rcases inner.head with ⟨c, rest, rfl, beginning⟩
    refine ⟨[], c, rest, rfl, noGap, ?_, .number inner⟩
    rcases beginning with rfl | digit
    · decide
    · exact begins_of_isDigit digit
  | lastItem inner isGapAfter inductionHypothesis =>
    rcases inductionHypothesis with ⟨gap, c, rest, rfl, isGap, beginning, inner⟩
    exact ⟨gap, c, _, List.append_assoc .., isGap, beginning, .lastItem inner isGapAfter⟩
  | item inner isGapAfter behind inductionHypothesis =>
    rcases inductionHypothesis with ⟨gap, c, rest, rfl, isGap, beginning, inner⟩
    exact ⟨gap, c, _, List.append_assoc .., isGap, beginning, .item inner isGapAfter behind⟩
  | null => exact ⟨[], _, _, rfl, noGap, by decide, .null⟩
  | yes => exact ⟨[], _, _, rfl, noGap, by decide, .yes⟩
  | no => exact ⟨[], _, _, rfl, noGap, by decide, .no⟩
  | string inner => exact ⟨[], _, _, rfl, noGap, by decide, .string inner⟩
  | noItems isGap => exact ⟨[], _, _, rfl, noGap, by decide, .noItems isGap⟩
  | array inner => exact ⟨[], _, _, rfl, noGap, by decide, .array inner⟩
  | noMembers isGap => exact ⟨[], _, _, rfl, noGap, by decide, .noMembers isGap⟩
  | object inner => exact ⟨[], _, _, rfl, noGap, by decide, .object inner⟩
  | lastMember named gapBefore inner gapAfter =>
    exact ⟨[], _, _, rfl, noGap, by decide, .lastMember named gapBefore inner gapAfter⟩
  | member named gapBefore inner gapAfter behind =>
    exact ⟨[], _, _, rfl, noGap, by decide, .member named gapBefore inner gapAfter behind⟩

theorem dropWhile_gap {gap : List Char} (isGap : IsGap gap) (text : List Char) :
    (gap ++ text).dropWhile isSeparator = text.dropWhile isSeparator :=
  List.dropWhile_append_of_pos isGap

theorem dropWhile_of_dark {c : Char} (dark : isSeparator c = false) (rest : List Char) :
    (c :: rest).dropWhile isSeparator = c :: rest :=
  List.dropWhile_cons_of_neg (Bool.eq_false_iff.mp dark)

section

variable {c : Char} (separator : isSeparator c = true) (steps depth : Nat) (text : List Char)
include separator

theorem readValue?_separator :
    readValue? steps depth (c :: text) = readValue? steps depth text := by
  cases steps with
  | zero => rfl
  | succ steps => rw [readValue?, readValue?, List.dropWhile_cons_of_pos separator]

theorem readItems?_separator :
    readItems? steps depth (c :: text) = readItems? steps depth text := by
  cases steps with
  | zero => rfl
  | succ steps => rw [readItems?, readItems?, readValue?_separator separator]

theorem readMembers?_separator :
    readMembers? steps depth (c :: text) = readMembers? steps depth text := by
  cases steps with
  | zero => rfl
  | succ steps => rw [readMembers?, readMembers?, List.dropWhile_cons_of_pos separator]

end

theorem readItems?_gap {gap : List Char} (isGap : IsGap gap) (steps depth : Nat) (text : List Char) :
    readItems? steps depth (gap ++ text) = readItems? steps depth text := by
  induction gap with
  | nil => rfl
  | cons c gap inductionHypothesis =>
    rcases List.forall_mem_cons.mp isGap with ⟨separator, isGap⟩
    rw [List.cons_append, readItems?_separator separator, inductionHypothesis isGap]

theorem readMembers?_gap {gap : List Char} (isGap : IsGap gap) (steps depth : Nat)
    (text : List Char) : readMembers? steps depth (gap ++ text) = readMembers? steps depth text := by
  induction gap with
  | nil => rfl
  | cons c gap inductionHypothesis =>
    rcases List.forall_mem_cons.mp isGap with ⟨separator, isGap⟩
    rw [List.cons_append, readMembers?_separator separator, inductionHypothesis isGap]

theorem continuesNumber_of_isSeparator {c : Char} (separator : isSeparator c = true) :
    continuesNumber c = false := by
  simp only [isSeparator, Bool.or_eq_true, decide_eq_true_eq] at separator
  rcases separator with ((rfl | rfl) | rfl) | rfl <;> decide

theorem IsGap.endsNumber {gap tail : List Char} (isGap : IsGap gap) (ends : EndsNumber tail) :
    EndsNumber (gap ++ tail) := by
  cases gap with
  | nil => exact ends
  | cons c gap => exact .cons (continuesNumber_of_isSeparator (isGap c List.mem_cons_self)) _

theorem readValue?_number {c : Char} {rest tail : List Char} {number : Number}
    (beginning : c = '-' ∨ c.isDigit = true)
    (reads : readNumber? (c :: rest) = some (number, tail)) (steps depth : Nat) :
    readValue? (steps + 1) depth (c :: rest) = some (num number, tail) := by
  have other : ∀ letter ∈ ['[', '\x7b', '"', 't', 'f', 'n'], c ≠ letter :=
    Text.ne_of_lacking (fun first => first == '-' || first.isDigit) (by simpa using beginning)
      (by decide)
  have dark : isSeparator c = false := by
    rcases beginning with rfl | digit
    · decide
    · exact (begins_spec (begins_of_isDigit digit)).1
  simp only [List.forall_mem_cons] at other
  rw [readValue?, dropWhile_of_dark dark]
  split
  all_goals simp_all

theorem readValue?_bracket (steps depth : Nat) (text : List Char) :
    readValue? (steps + 1) (depth + 1) ('[' :: text) =
      match text.dropWhile isSeparator with
      | ']' :: rest => some (arr [], rest)
      | rest => do
        let (items, rest) ← readItems? steps depth rest
        return (arr items, rest) := by
  rw [readValue?, dropWhile_of_dark (by decide)]
  rfl

theorem readValue?_brace (steps depth : Nat) (text : List Char) :
    readValue? (steps + 1) (depth + 1) ('\x7b' :: text) =
      match text.dropWhile isSeparator with
      | '\x7d' :: rest => some (obj [], rest)
      | rest => do
        let (members, rest) ← readMembers? steps depth rest
        return (object members, rest) := by
  rw [readValue?, dropWhile_of_dark (by decide)]
  rfl

/-- What follows the value of a member: more members or a closing brace. -/
theorem readMembers?_member {steps depth : Nat} {quoted name before text after tail : List Char}
    {value : Json} (named : WritesString quoted name) (gapBefore : IsGap before)
    (gapAfter : IsGap after)
    (read : readValue? steps depth (text ++ (after ++ tail)) = some (value, after ++ tail)) :
    readMembers? (steps + 1) depth ('"' :: (quoted ++ (before ++ ':' :: (text ++ (after ++ tail))))) =
      match tail.dropWhile isSeparator with
      | ',' :: rest => do
        let (members, rest) ← readMembers? steps depth rest
        return ((String.ofList name, value) :: members, rest)
      | '\x7d' :: rest => return ([(String.ofList name, value)], rest)
      | _ => none := by
  have nameRead := readString?_append named [] (before ++ ':' :: (text ++ (after ++ tail)))
  have colon : (before ++ ':' :: (text ++ (after ++ tail))).dropWhile isSeparator =
      ':' :: (text ++ (after ++ tail)) := by
    rw [dropWhile_gap gapBefore]
    exact dropWhile_of_dark (by decide) _
  rw [readMembers?, dropWhile_of_dark (by decide)]
  simp only [nameRead, colon, read, Option.bind_eq_bind, Option.bind_some, dropWhile_gap gapAfter]
  rfl

theorem exists_steps {c : Char} {rest : List Char} {steps : Nat}
    (enough : 2 * (c :: rest).length ≤ steps) : ∃ lower, steps = lower + 1 :=
  Nat.exists_eq_add_of_le' (by rw [List.length_cons] at enough; omega)

/-- What is written is read from the front of longer texts, given two steps for
each of its characters. -/
def Reads (depth : Nat) (text : List Char) : Content → Prop
  | .value value => ∀ steps tail, 2 * text.length ≤ steps → EndsNumber tail →
      readValue? steps depth (text ++ tail) = some (value, tail)
  | .items items => ∀ steps tail, 2 * text.length ≤ steps →
      readItems? steps depth (text ++ tail) = some (items, tail)
  | .members members => ∀ steps tail, 2 * text.length ≤ steps →
      readMembers? steps depth (text ++ tail) = some (members, tail)

namespace Reads

variable {depth : Nat} {text : List Char}

theorem spaced {c : Char} {content : Content} (separator : isSeparator c = true)
    (reads : Reads depth text content) : Reads depth (c :: text) content := by
  cases content with
  | value value =>
    intro steps tail enough ends
    rw [List.length_cons] at enough
    rw [List.cons_append, readValue?_separator separator]
    exact reads steps tail (by omega) ends
  | items items =>
    intro steps tail enough
    rw [List.length_cons] at enough
    rw [List.cons_append, readItems?_separator separator]
    exact reads steps tail (by omega)
  | members members =>
    intro steps tail enough
    rw [List.length_cons] at enough
    rw [List.cons_append, readMembers?_separator separator]
    exact reads steps tail (by omega)

theorem number {value : Number} (writes : WritesNumber text value) :
    Reads depth text (.value (.num value)) := by
  intro steps tail enough ends
  rcases writes.head with ⟨c, rest, rfl, beginning⟩
  obtain ⟨steps, rfl⟩ := exists_steps enough
  have read := readNumber?_append writes ends
  rw [List.cons_append] at read ⊢
  exact readValue?_number beginning read steps _

theorem string {content : List Char} (writes : WritesString text content) :
    Reads depth ('"' :: text) (.value (.str (String.ofList content))) := by
  intro steps tail enough _
  obtain ⟨steps, rfl⟩ := exists_steps enough
  rw [readValue?, List.cons_append, dropWhile_of_dark (by decide)]
  simp [readString?_append writes]

/-! ### Arrays and objects -/

theorem noItems {gap : List Char} (isGap : IsGap gap) :
    Reads (depth + 1) ('[' :: (gap ++ [']'])) (.value (.arr [])) := by
  intro steps tail enough _
  obtain ⟨steps, rfl⟩ := exists_steps enough
  rw [List.cons_append, readValue?_bracket, List.append_assoc, dropWhile_gap isGap]
  rfl

theorem noMembers {gap : List Char} (isGap : IsGap gap) :
    Reads (depth + 1) ('\x7b' :: (gap ++ ['\x7d'])) (.value (.obj [])) := by
  intro steps tail enough _
  obtain ⟨steps, rfl⟩ := exists_steps enough
  rw [List.cons_append, readValue?_brace, List.append_assoc, dropWhile_gap isGap]
  rfl

/-- What stands behind an opening bracket begins with a first item. -/
theorem array {items : List Json} (writes : Writes depth text (.items items))
    (reads : Reads depth text (.items items)) :
    Reads (depth + 1) ('[' :: text) (.value (.arr items)) := by
  intro steps tail enough _
  obtain ⟨steps, rfl⟩ := exists_steps enough
  rw [List.length_cons] at enough
  rcases writes.exists_gap with ⟨gap, c, rest, rfl, isGap, beginning, -⟩
  rcases begins_spec beginning with ⟨dark, noBracket, -⟩
  have read := reads steps tail (by omega)
  rw [List.append_assoc, readItems?_gap isGap, List.cons_append] at read
  rw [List.cons_append, readValue?_bracket, List.append_assoc, dropWhile_gap isGap,
    List.cons_append, dropWhile_of_dark dark]
  split
  · rename_i same
    cases same
    exact absurd rfl noBracket
  · rw [read]
    rfl

/-- What stands behind an opening brace begins with a first member. -/
theorem object {members : List (String × Json)} (writes : Writes depth text (.members members))
    (reads : Reads depth text (.members members)) :
    Reads (depth + 1) ('\x7b' :: text) (.value (.object members)) := by
  intro steps tail enough _
  obtain ⟨steps, rfl⟩ := exists_steps enough
  rw [List.length_cons] at enough
  rcases writes.exists_gap with ⟨gap, c, rest, rfl, isGap, beginning, -⟩
  rcases begins_spec beginning with ⟨dark, -, noBrace⟩
  have read := reads steps tail (by omega)
  rw [List.append_assoc, readMembers?_gap isGap, List.cons_append] at read
  rw [List.cons_append, readValue?_brace, List.append_assoc, dropWhile_gap isGap,
    List.cons_append, dropWhile_of_dark dark]
  split
  · rename_i same
    cases same
    exact absurd rfl noBrace
  · rw [read]
    rfl

/-! ### Items and members -/

section

variable {gap more : List Char} {first : Json} {items : List Json}
  (reads : Reads depth text (.value first)) (isGap : IsGap gap)

include reads isGap

theorem lastItem : Reads depth (text ++ (gap ++ [']'])) (.items [first]) := by
  intro steps tail enough
  simp only [List.length_append, List.length_cons, List.length_nil] at enough
  obtain ⟨steps, rfl⟩ : ∃ lower, steps = lower + 1 := Nat.exists_eq_add_of_le' (by omega)
  have read := reads steps (gap ++ ']' :: tail) (by omega)
    (isGap.endsNumber (.cons (by decide) tail))
  simp only [List.append_assoc, List.cons_append, List.nil_append, readItems?, read,
    Option.bind_eq_bind, Option.bind_some, dropWhile_gap isGap]
  rfl

theorem item (readsMore : Reads depth more (.items items)) :
    Reads depth (text ++ (gap ++ ',' :: more)) (.items (first :: items)) := by
  intro steps tail enough
  simp only [List.length_append, List.length_cons] at enough
  obtain ⟨steps, rfl⟩ : ∃ lower, steps = lower + 1 := Nat.exists_eq_add_of_le' (by omega)
  have read := reads steps (gap ++ ',' :: (more ++ tail)) (by omega)
    (isGap.endsNumber (.cons (by decide) _))
  have readMore := readsMore steps tail (by omega)
  simp only [List.append_assoc, List.cons_append, readItems?, read, Option.bind_eq_bind,
    Option.bind_some, dropWhile_gap isGap, dropWhile_of_dark (show isSeparator ',' = false from rfl),
    readMore]
  rfl

end

section

variable {quoted name before after more : List Char} {value : Json}
  {members : List (String × Json)} (named : WritesString quoted name) (gapBefore : IsGap before)
  (reads : Reads depth text (.value value)) (gapAfter : IsGap after)

include named gapBefore reads gapAfter

theorem lastMember :
    Reads depth ('"' :: (quoted ++ (before ++ ':' :: (text ++ (after ++ ['\x7d'])))))
      (.members [(String.ofList name, value)]) := by
  intro steps tail enough
  obtain ⟨steps, rfl⟩ := exists_steps enough
  simp only [List.length_append, List.length_cons, List.length_nil] at enough
  have read := reads steps (after ++ '\x7d' :: tail) (by omega)
    (gapAfter.endsNumber (.cons (by decide) tail))
  simp only [List.append_assoc, List.cons_append, List.nil_append]
  rw [readMembers?_member named gapBefore gapAfter read]
  rfl

theorem member (readsMore : Reads depth more (.members members)) :
    Reads depth ('"' :: (quoted ++ (before ++ ':' :: (text ++ (after ++ ',' :: more)))))
      (.members ((String.ofList name, value) :: members)) := by
  intro steps tail enough
  obtain ⟨steps, rfl⟩ := exists_steps enough
  simp only [List.length_append, List.length_cons] at enough
  have read := reads steps (after ++ ',' :: (more ++ tail)) (by omega)
    (gapAfter.endsNumber (.cons (by decide) _))
  have readMore := readsMore steps tail (by omega)
  simp only [List.append_assoc, List.cons_append]
  rw [readMembers?_member named gapBefore gapAfter read, dropWhile_of_dark (by decide)]
  simp only [readMore]
  rfl

end

end Reads

theorem Writes.reads {depth : Nat} {text : List Char} {content : Content}
    (writes : Writes depth text content) : Reads depth text content := by
  induction writes with
  | spaced separator _ reads => exact reads.spaced separator
  | null | yes | no =>
    intro steps tail enough _
    obtain ⟨steps, rfl⟩ := Nat.exists_eq_add_of_le' enough
    rfl
  | number inner => exact .number inner
  | string inner => exact .string inner
  | noItems isGap => exact .noItems isGap
  | array inner reads => exact .array inner reads
  | noMembers isGap => exact .noMembers isGap
  | object inner reads => exact .object inner reads
  | lastItem _ isGap reads => exact .lastItem reads isGap
  | item _ isGap _ reads readsMore => exact .item reads isGap readsMore
  | lastMember named gapBefore _ gapAfter reads =>
    exact .lastMember named gapBefore reads gapAfter
  | member named gapBefore _ gapAfter _ reads readsMore =>
    exact .member named gapBefore reads gapAfter readsMore

/-- A text begins with a gap. -/
theorem exists_gap_append (text : List Char) :
    ∃ gap, text = gap ++ text.dropWhile isSeparator ∧ IsGap gap := by
  refine ⟨text.takeWhile isSeparator, List.takeWhile_append_dropWhile.symm, ?_⟩
  rw [IsGap, ← List.all_eq_true]
  exact List.all_takeWhile

theorem Writes.behind_gap {gap text : List Char} {depth : Nat} {content : Content}
    (isGap : IsGap gap) (writes : Writes depth text content) :
    Writes depth (gap ++ text) content := by
  induction gap with
  | nil => exact writes
  | cons c gap inductionHypothesis =>
    rcases List.forall_mem_cons.mp isGap with ⟨separator, isGap⟩
    exact .spaced separator (inductionHypothesis isGap)

/-- What is read is written by the part of the text that is passed. -/
structure Sound (steps : Nat) : Prop where
  value {depth : Nat} {text rest : List Char} {value : Json}
    (reads : readValue? steps depth text = some (value, rest)) :
    ∃ part, text = part ++ rest ∧ Writes depth part (.value value)
  items {depth : Nat} {text rest : List Char} {items : List Json}
    (reads : readItems? steps depth text = some (items, rest)) :
    ∃ part, text = part ++ rest ∧ Writes depth part (.items items)
  members {depth : Nat} {text rest : List Char} {members : List (String × Json)}
    (reads : readMembers? steps depth text = some (members, rest)) :
    ∃ part, text = part ++ rest ∧ Writes depth part (.members members)

section

variable {steps : Nat}

theorem Sound.value_step (sound : Sound steps) {depth : Nat} {text rest : List Char} {value : Json}
    (reads : readValue? (steps + 1) depth text = some (value, rest)) :
    ∃ part, text = part ++ rest ∧ Writes depth part (.value value) := by
  rcases exists_gap_append text with ⟨gap, split, isGap⟩
  suffices behind : ∃ part, text.dropWhile isSeparator = part ++ rest ∧
      Writes depth part (.value value) by
    rcases behind with ⟨part, same, writes⟩
    rw [same, ← List.append_assoc] at split
    exact ⟨gap ++ part, split, writes.behind_gap isGap⟩
  rw [readValue?] at reads
  generalize text.dropWhile isSeparator = core at reads ⊢
  split at reads
  · rename_i behind
    split at reads
    · cases reads
    · rename_i depth
      rcases exists_gap_append behind with ⟨gap, split, isGap⟩
      split at reads
      · rename_i more opens
        cases reads
        refine ⟨'[' :: (gap ++ [']']), ?_, .noItems isGap⟩
        rw [split, opens]
        simp
      · rcases Option.bind_eq_some_iff.mp reads with ⟨⟨items, _⟩, read, result⟩
        cases result
        rcases sound.items read with ⟨part, same, writes⟩
        refine ⟨'[' :: (gap ++ part), ?_, .array (writes.behind_gap isGap)⟩
        rw [split, same]
        simp
  · rename_i behind
    split at reads
    · cases reads
    · rename_i depth
      rcases exists_gap_append behind with ⟨gap, split, isGap⟩
      split at reads
      · rename_i more opens
        cases reads
        refine ⟨'\x7b' :: (gap ++ ['\x7d']), ?_, .noMembers isGap⟩
        rw [split, opens]
        simp
      · rcases Option.bind_eq_some_iff.mp reads with ⟨⟨members, _⟩, read, result⟩
        cases result
        rcases sound.members read with ⟨part, same, writes⟩
        refine ⟨'\x7b' :: (gap ++ part), ?_, .object (writes.behind_gap isGap)⟩
        rw [split, same]
        simp
  · rcases Option.bind_eq_some_iff.mp reads with ⟨⟨read, _⟩, stringRead, result⟩
    cases result
    rcases exists_writesString stringRead with ⟨part, content, rfl, writes, rfl⟩
    exact ⟨'"' :: part, rfl, .string writes⟩
  · cases reads
    exact ⟨_, rfl, .yes⟩
  · cases reads
    exact ⟨_, rfl, .no⟩
  · cases reads
    exact ⟨_, rfl, .null⟩
  · rcases Option.bind_eq_some_iff.mp reads with ⟨⟨number, _⟩, numberRead, result⟩
    cases result
    rcases exists_writesNumber numberRead with ⟨part, rfl, writes⟩
    exact ⟨part, rfl, .number writes⟩

theorem Sound.items_step (sound : Sound steps) {depth : Nat} {text rest : List Char}
    {items : List Json} (reads : readItems? (steps + 1) depth text = some (items, rest)) :
    ∃ part, text = part ++ rest ∧ Writes depth part (.items items) := by
  rw [readItems?] at reads
  rcases Option.bind_eq_some_iff.mp reads with ⟨⟨item, behind⟩, read, next⟩
  rcases sound.value read with ⟨part, rfl, inner⟩
  rcases exists_gap_append behind with ⟨gap, split, isGap⟩
  dsimp only at next
  split at next
  · rename_i more opens
    rcases Option.bind_eq_some_iff.mp next with ⟨⟨items, _⟩, readMore, result⟩
    cases result
    rcases sound.items readMore with ⟨others, rfl, writes⟩
    refine ⟨part ++ (gap ++ ',' :: others), ?_, .item inner isGap writes⟩
    rw [split, opens]
    simp
  · rename_i more opens
    cases next
    refine ⟨part ++ (gap ++ [']']), ?_, .lastItem inner isGap⟩
    rw [split, opens]
    simp
  · cases next

theorem Sound.members_step (sound : Sound steps) {depth : Nat} {text rest : List Char}
    {members : List (String × Json)}
    (reads : readMembers? (steps + 1) depth text = some (members, rest)) :
    ∃ part, text = part ++ rest ∧ Writes depth part (.members members) := by
  rcases exists_gap_append text with ⟨gap, split, isGap⟩
  suffices behind : ∃ part, text.dropWhile isSeparator = part ++ rest ∧
      Writes depth part (.members members) by
    rcases behind with ⟨part, same, writes⟩
    rw [same, ← List.append_assoc] at split
    exact ⟨gap ++ part, split, writes.behind_gap isGap⟩
  rw [readMembers?] at reads
  generalize text.dropWhile isSeparator = core at reads ⊢
  split at reads
  · rcases Option.bind_eq_some_iff.mp reads with ⟨⟨name, behindName⟩, stringRead, afterName⟩
    rcases exists_writesString stringRead with ⟨quoted, content, rfl, named, rfl⟩
    rcases exists_gap_append behindName with ⟨before, splitName, gapBefore⟩
    dsimp only at afterName
    split at afterName
    · rename_i text colon
      rcases Option.bind_eq_some_iff.mp afterName with ⟨⟨value, behind⟩, read, next⟩
      rcases sound.value read with ⟨part, rfl, inner⟩
      rcases exists_gap_append behind with ⟨after, split, gapAfter⟩
      dsimp only at next
      split at next
      · rename_i more opens
        rcases Option.bind_eq_some_iff.mp next with ⟨⟨members, _⟩, readMore, result⟩
        cases result
        rcases sound.members readMore with ⟨others, rfl, writes⟩
        refine ⟨_, ?_, .member named gapBefore inner gapAfter writes⟩
        rw [splitName, colon, split, opens]
        simp
      · rename_i more opens
        cases next
        refine ⟨_, ?_, .lastMember named gapBefore inner gapAfter⟩
        rw [splitName, colon, split, opens]
        simp
      · cases next
    · cases afterName
  · cases reads

end

theorem sound (steps : Nat) : Sound steps := by
  induction steps with
  | zero => exact
      { value := by intro _ _ _ _ reads; cases reads
        items := by intro _ _ _ _ reads; cases reads
        members := by intro _ _ _ _ reads; cases reads }
  | succ steps inductionHypothesis => exact
      { value := inductionHypothesis.value_step
        items := inductionHypothesis.items_step
        members := inductionHypothesis.members_step }

/-- The characters with which values, and what contains them, end. -/
def ends (c : Char) : Bool :=
  ['l', 'e', '"', ']', '\x7d'].contains c || c.isDigit

theorem ends_of_isDigit {c : Char} (digit : c.isDigit = true) : ends c = true := by
  simp [ends, digit]

theorem isSeparator_of_ends {c : Char} (ending : ends c = true) : isSeparator c = false := by
  have different : ∀ other ∈ [' ', '\n', '\t', '\r'], c ≠ other :=
    Text.ne_of_lacking ends ending (by decide)
  simp only [List.forall_mem_cons] at different
  simp [isSeparator, different]

/-- A text ends with such a character. -/
def EndsWritten (text : List Char) : Prop :=
  ∃ front c, text = front ++ [c] ∧ ends c = true

theorem EndsWritten.append {text : List Char} (written : EndsWritten text) (before : List Char) :
    EndsWritten (before ++ text) := by
  rcases written with ⟨front, c, rfl, ending⟩
  exact ⟨before ++ front, c, (List.append_assoc ..).symm, ending⟩

theorem EndsWritten.cons {text : List Char} (written : EndsWritten text) (c : Char) :
    EndsWritten (c :: text) :=
  written.append [c]

theorem endsWritten_of_digits {digits : List Char} (written : digits ≠ [])
    (isDigit : ∀ c ∈ digits, c.isDigit = true) : EndsWritten digits :=
  ⟨digits.dropLast, digits.getLast written, (List.dropLast_concat_getLast written).symm,
    ends_of_isDigit (isDigit _ (List.getLast_mem written))⟩

theorem WritesString.endsWritten {text content : List Char} (writes : WritesString text content) :
    EndsWritten text := by
  induction writes with
  | closed => exact ⟨[], '"', rfl, by decide⟩
  | plain _ _ _ _ inductionHypothesis => exact inductionHypothesis.cons _
  | letter _ _ inductionHypothesis => exact inductionHypothesis.append [_, _]
  | unit _ _ _ inductionHypothesis => exact inductionHypothesis.append [_, _, _, _, _, _]
  | pair _ _ _ _ _ inductionHypothesis =>
    exact inductionHypothesis.append [_, _, _, _, _, _, _, _, _, _, _, _]

theorem WritesNumber.endsWritten {text : List Char} {number : Number}
    (writes : WritesNumber text number) : EndsWritten text := by
  cases writes with
  | parts signs isWhole isDigit behindPoint raised =>
    refine .append ?_ _
    cases raised with
    | present marks signs written isDigit =>
      exact (((endsWritten_of_digits written isDigit).append _).cons _).append _ |>.append _
    | absent =>
      rw [List.append_nil]
      cases behindPoint with
      | present written isDigit =>
        exact ((endsWritten_of_digits written isDigit).cons _).append _
      | absent =>
        rw [List.append_nil]
        exact endsWritten_of_digits (ne_nil_of_isWholePart isWhole) isDigit

/-- What is written ends with a digit, a quote, a bracket or a letter. -/
theorem Writes.endsWritten {depth : Nat} {text : List Char} {content : Content}
    (writes : Writes depth text content) : EndsWritten text := by
  have bracket (text : List Char) : EndsWritten (text ++ [']']) := ⟨text, ']', rfl, by decide⟩
  have brace (text : List Char) : EndsWritten (text ++ ['\x7d']) := ⟨text, '\x7d', rfl, by decide⟩
  induction writes with
  | spaced _ _ inductionHypothesis => exact inductionHypothesis.cons _
  | null => exact ⟨['n', 'u', 'l'], 'l', rfl, by decide⟩
  | yes => exact ⟨['t', 'r', 'u'], 'e', rfl, by decide⟩
  | no => exact ⟨['f', 'a', 'l', 's'], 'e', rfl, by decide⟩
  | number inner => exact inner.endsWritten
  | string inner => exact inner.endsWritten.cons _
  | noItems => exact (bracket _).cons _
  | array _ inductionHypothesis => exact inductionHypothesis.cons _
  | noMembers => exact (brace _).cons _
  | object _ inductionHypothesis => exact inductionHypothesis.cons _
  | lastItem => exact ((bracket _).append _)
  | item _ _ _ _ restHypothesis => exact ((restHypothesis.cons _).append _).append _
  | lastMember => exact (((((brace _).append _).cons _).append _).append _).cons _
  | member _ _ _ _ _ _ restHypothesis =>
    exact ((((((restHypothesis.cons _).append _).append _).cons _).append _).append _).cons _

/-- A text ends in one place with such a character before separators. -/
theorem eq_of_gaps {text other after gap : List Char} (same : text ++ after = other ++ gap)
    (written : EndsWritten text) (otherWritten : EndsWritten other) (gapAfter : IsGap after)
    (isGap : IsGap gap) : text = other := by
  have noGap {front between rest : List Char} (written : EndsWritten (front ++ between))
      (isGap : IsGap (between ++ rest)) : between = [] := by
    rcases between.eq_nil_or_concat with rfl | ⟨between, last, rfl⟩
    · rfl
    · rcases written with ⟨_, c, whole, ending⟩
      rw [List.concat_eq_append, ← List.append_assoc] at whole
      obtain rfl := List.singleton_inj.mp (List.append_inj_right' whole rfl)
      have separator := isGap last (by simp)
      exact absurd separator (Bool.eq_false_iff.mp (isSeparator_of_ends ending))
  rcases List.append_eq_append_iff.mp same with ⟨between, rfl, rfl⟩ | ⟨between, rfl, rfl⟩
  · rw [noGap otherWritten gapAfter, List.append_nil]
  · rw [noGap written isGap, List.append_nil]

end Grammar

open Grammar in
/-- The JSON texts of a value are those that write it, with separators behind
them. -/
theorem parse?_eq_some_iff {text : List Char} {value : Json} :
    parse? text = some value ↔
      ∃ part gap, text = part ++ gap ∧ Writes maxDepth part (.value value) ∧ IsGap gap := by
  constructor
  · intro reads
    unfold parse? at reads
    split at reads
    · rename_i rest read
      split at reads
      · rename_i isGap
        cases reads
        rcases (sound _).value read with ⟨part, split, writes⟩
        exact ⟨part, rest, split, writes, List.all_eq_true.mp isGap⟩
      · cases reads
    · cases reads
  · rintro ⟨part, gap, rfl, writes, isGap⟩
    have ends : EndsNumber gap := List.append_nil gap ▸ isGap.endsNumber .nil
    have read : readValue? (2 * (part ++ gap).length + 2) maxDepth (part ++ gap) =
        some (value, gap) :=
      writes.reads _ gap (by rw [List.length_append]; omega) ends
    rw [parse?, read]
    exact if_pos (List.all_eq_true.mpr isGap)

open Grammar in
/-- Separators around a text do not matter. -/
theorem parse?_gaps {before core after : List Char} {c : Char} {value : Json}
    (gapBefore : IsGap before) (gapAfter : IsGap after) (dark : isSeparator c = false)
    (written : EndsWritten (c :: core)) :
    parse? (before ++ (c :: core ++ after)) = some value ↔ parse? (c :: core) = some value := by
  simp only [parse?_eq_some_iff]
  constructor
  · rintro ⟨part, gap, whole, writes, isGap⟩
    rcases writes.exists_gap with ⟨gapPart, d, rest, rfl, isGapPart, beginning, inner⟩
    have same : c :: core ++ after = d :: rest ++ gap := by
      have dropped := congrArg (List.dropWhile isSeparator) whole
      rw [dropWhile_gap gapBefore, List.append_assoc, dropWhile_gap isGapPart, List.cons_append,
        dropWhile_of_dark dark, List.cons_append,
        dropWhile_of_dark (begins_spec beginning).1] at dropped
      exact dropped
    rw [eq_of_gaps same written inner.endsWritten gapAfter isGap]
    exact ⟨d :: rest, [], (List.append_nil _).symm, inner, List.forall_mem_nil _⟩
  · rintro ⟨part, gap, same, writes, isGap⟩
    refine ⟨before ++ part, gap ++ after, ?_, writes.behind_gap gapBefore,
      List.forall_mem_append.mpr ⟨isGap, gapAfter⟩⟩
    rw [same]
    simp only [List.append_assoc]

end Json
end CharacterSheet
