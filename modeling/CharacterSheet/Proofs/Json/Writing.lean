import CharacterSheet.Json.Writer
import CharacterSheet.Proofs.Json.Parsing
import CharacterSheet.Proofs.Json.Record

/-!
# Written texts are read again

What is written of a value, with whatever blanks between its parts, is one of
the texts of the grammar that write the value.  So the reader gives the value
back.  Two things are asked of it: its numbers must be read as themselves, and
no more arrays and objects may enclose one another than the reader allows.
-/

namespace CharacterSheet
namespace Json

open Grammar

/-! ## String literals -/

theorem hexUnit?_lowHexDigit :
    ∀ code < 0x20, hexUnit? '0' '0' (lowHexDigit (code / 16)) (lowHexDigit (code % 16)) =
      some code := by
  decide

theorem writesString_escapeChar (c : Char) {text content : List Char}
    (behind : WritesString text content) : WritesString (escapeChar c ++ text) (c :: content) := by
  unfold escapeChar
  split
  any_goals exact .letter rfl behind
  rename_i noQuote noEscape _ _ _ _ _
  split
  · rename_i control
    have written := WritesString.unit (hexUnit?_lowHexDigit c.toNat control) (by omega) behind
    rwa [Char.ofNat_toNat] at written
  · rename_i printable
    exact .plain (Nat.le_of_not_lt printable) noQuote noEscape behind

/-- The escaped characters of a text and a closing quote. -/
theorem writesString_escaped (content : List Char) :
    WritesString (content.flatMap escapeChar ++ ['"']) content := by
  induction content with
  | nil => exact .closed
  | cons c rest inductionHypothesis =>
    rw [List.flatMap_cons, List.append_assoc]
    exact writesString_escapeChar c inductionHypothesis

theorem toList_quote (text : String) :
    (quote text).toList = '"' :: (text.toList.flatMap escapeChar ++ ['"']) := by
  simp [quote]

/-! ## Objects in order -/

mutual

/-- A value with the members of its objects in order, as the reader makes
them. -/
def sorted : Json → Json
  | arr items => arr (sortedItems items)
  | obj members => object (sortedMembers members)
  | value => value

/-- Every item with the members of its objects in order. -/
def sortedItems : List Json → List Json
  | [] => []
  | item :: rest => item.sorted :: sortedItems rest

/-- Every member with the members of its objects in order. -/
def sortedMembers : List (String × Json) → List (String × Json)
  | [] => []
  | (name, value) :: rest => (name, value.sorted) :: sortedMembers rest

end

theorem sortedItems_eq_map (items : List Json) : sortedItems items = items.map sorted := by
  induction items with
  | nil => rw [sortedItems, List.map_nil]
  | cons item rest inductionHypothesis => rw [sortedItems, inductionHypothesis, List.map_cons]

theorem sortedMembers_eq_map (members : List (String × Json)) :
    sortedMembers members = members.map fun member => (member.1, member.2.sorted) := by
  induction members with
  | nil => rw [sortedMembers, List.map_nil]
  | cons member rest inductionHypothesis =>
    rw [sortedMembers, inductionHypothesis, List.map_cons]

theorem sorted_ofList {α : Type} {encode data : α → Json}
    (each : ∀ item, (encode item).sorted = data item) (items : List α) :
    (ofList encode items).sorted = ofList data items := by
  rw [ofList, sorted, sortedItems_eq_map, List.map_map]
  exact congrArg arr (List.map_congr_left fun item _ => each item)

/-- The object of a map is in order. -/
theorem sorted_ofMap {α : Type} {encode data : α → Json}
    (each : ∀ value, (encode value).sorted = data value) (map : SortedMap String α) :
    (ofMap encode map).sorted = ofMap data map := by
  have inner : sortedMembers (map.mapValues fun _ value => encode value).toList =
      (map.mapValues fun _ value => data value).toList := by
    simp [sortedMembers_eq_map, SortedMap.mapValues, each]
  rw [ofMap, sorted, inner, object_toList, ofMap]

/-! ## Arrays and objects -/

/-- There are only blanks between the parts of arrays and objects. -/
structure Spacing.Blank (spacing : Spacing) : Prop where
  lineStart (depth : Nat) : IsGap (spacing.lineStart depth).toList
  afterColon : IsGap spacing.afterColon.toList

theorem Spacing.blank_lines : lines.Blank where
  lineStart depth := by
    have indented : (lines.lineStart depth).toList = '\n' :: List.replicate (2 * depth) ' ' := by
      simp [lines]
    rw [indented]
    refine List.forall_mem_cons.mpr ⟨rfl, fun c member => ?_⟩
    rw [List.eq_of_mem_replicate member]
    rfl
  afterColon := by
    intro c member
    rw [List.mem_singleton.mp member]
    rfl

section

variable {spacing : Spacing} (blank : spacing.Blank) {depth : Nat}
include blank

/-- The items of an array are written if each of them is. -/
theorem writes_itemsWith {items : List Json} (written : items ≠ []) (around : Nat)
    (each : ∀ item ∈ items, Writes depth (item.textWith spacing around).toList (.value item.sorted))
    {gap : List Char} (isGap : IsGap gap) :
    Writes depth ((itemsWith spacing around items).toList ++ (gap ++ [']']))
      (.items (sortedItems items)) := by
  induction items with
  | nil => exact absurd rfl written
  | cons item rest inductionHypothesis =>
    have first := (each item List.mem_cons_self).behind_gap (blank.lineStart around)
    cases rest with
    | nil =>
      rw [itemsWith, sortedItems, sortedItems, String.toList_append]
      exact .lastItem first isGap
    | cons next rest =>
      have others := inductionHypothesis (List.cons_ne_nil _ _)
        fun other member => each other (List.mem_cons_of_mem _ member)
      have together := Writes.item first (List.forall_mem_nil _) others
      rw [itemsWith, sortedItems]
      · simpa using together
      · exact List.cons_ne_nil _ _

/-- The members of an object are written if the value of each of them is. -/
theorem writes_membersWith {members : List (String × Json)} (written : members ≠ [])
    (around : Nat)
    (each : ∀ member ∈ members,
      Writes depth (member.2.textWith spacing around).toList (.value member.2.sorted))
    {gap : List Char} (isGap : IsGap gap) :
    Writes depth ((membersWith spacing around members).toList ++ (gap ++ ['\x7d']))
      (.members (sortedMembers members)) := by
  induction members with
  | nil => exact absurd rfl written
  | cons member rest inductionHypothesis =>
    obtain ⟨name, value⟩ := member
    have named := writesString_escaped name.toList
    have first := (each (name, value) List.mem_cons_self).behind_gap blank.afterColon
    cases rest with
    | nil =>
      have alone := Writes.lastMember named (List.forall_mem_nil _) first isGap
      have whole := alone.behind_gap (blank.lineStart around)
      rw [membersWith, sortedMembers, sortedMembers]
      simpa [toList_quote] using whole
    | cons next rest =>
      have others := inductionHypothesis (List.cons_ne_nil _ _)
        fun other listed => each other (List.mem_cons_of_mem _ listed)
      have together := Writes.member named (List.forall_mem_nil _) first (List.forall_mem_nil _)
        others
      have whole := together.behind_gap (blank.lineStart around)
      rw [membersWith, sortedMembers]
      · simpa [toList_quote] using whole
      · exact List.cons_ne_nil _ _

end

/-! ## Values -/

/-- Values that can be read again from what is written of them, with at most so
many arrays and objects around one another. -/
inductive Printable : Nat → Json → Prop where
  | null {depth : Nat} : Printable depth null
  | bool {depth : Nat} (value : Bool) : Printable depth (bool value)
  | num {depth : Nat} {value : Number} (reads : WritesNumber value.text.toList value) :
      Printable depth (num value)
  | str {depth : Nat} (value : String) : Printable depth (str value)
  | arr {depth : Nat} {items : List Json} (each : ∀ item ∈ items, Printable depth item) :
      Printable (depth + 1) (arr items)
  | obj {depth : Nat} {members : List (String × Json)}
      (each : ∀ member ∈ members, Printable depth member.2) : Printable (depth + 1) (obj members)

theorem Printable.writes {spacing : Spacing} (blank : spacing.Blank) {depth : Nat} {value : Json}
    (printable : Printable depth value) (around : Nat) :
    Writes depth (value.textWith spacing around).toList (.value value.sorted) := by
  have noGap : IsGap [] := List.forall_mem_nil _
  induction printable generalizing around with
  | null =>
    rw [textWith]
    exact .null
  | bool value =>
    cases value with
    | false =>
      rw [textWith]
      exact .no
    | true =>
      rw [textWith]
      exact .yes
  | num reads =>
    rw [textWith]
    exact .number reads
  | @str depth value =>
    have quoted : Writes depth _ _ := .string (writesString_escaped value.toList)
    rw [← toList_quote, String.ofList_toList] at quoted
    rw [textWith]
    exact quoted
  | @arr depth items each inductionHypothesis =>
    rw [sorted]
    cases items with
    | nil =>
      rw [textWith]
      exact .noItems noGap
    | cons item rest =>
      have inner := writes_itemsWith blank (List.cons_ne_nil item rest) (around + 1)
        (fun other member => inductionHypothesis other member _) (blank.lineStart around)
      rw [textWith]
      · simpa using Writes.array inner
      · exact List.cons_ne_nil _ _
  | @obj depth members each inductionHypothesis =>
    rw [sorted]
    cases members with
    | nil =>
      rw [textWith]
      exact .noMembers noGap
    | cons member rest =>
      have inner := writes_membersWith blank (List.cons_ne_nil member rest) (around + 1)
        (fun other listed => inductionHypothesis other listed _) (blank.lineStart around)
      rw [textWith]
      · simpa using Writes.object inner
      · exact List.cons_ne_nil _ _

/-- Reading gives back what was written, with its members in order. -/
theorem Printable.parse?_textWith {spacing : Spacing} (blank : spacing.Blank) {value : Json}
    (printable : Printable maxDepth value) :
    parse? (value.textWith spacing 0).toList = some value.sorted :=
  parse?_eq_some_iff.mpr
    ⟨_, [], (List.append_nil _).symm, printable.writes blank 0, List.forall_mem_nil _⟩

theorem Printable.parse?_pretty {value : Json} (printable : Printable maxDepth value) :
    parse? value.pretty.toList = some value.sorted :=
  printable.parse?_textWith Spacing.blank_lines

theorem Printable.ofList {α : Type} {depth : Nat} {encode : α → Json} {items : List α}
    (each : ∀ item ∈ items, Printable depth (encode item)) :
    Printable (depth + 1) (ofList encode items) :=
  .arr (List.forall_mem_map.mpr each)

theorem Printable.ofMap {α : Type} {depth : Nat} {encode : α → Json} {map : SortedMap String α}
    (each : ∀ entry ∈ map.toList, Printable depth (encode entry.2)) :
    Printable (depth + 1) (ofMap encode map) :=
  .obj (List.forall_mem_map.mpr each)

end Json
end CharacterSheet
