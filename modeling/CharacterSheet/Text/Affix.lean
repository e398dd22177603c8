/-!
# Beginnings, endings and parts of texts

The searches in texts that keys and queries need, on lists of characters.
-/

namespace CharacterSheet
namespace Text

/-- What follows a given beginning. -/
def after? : List Char → List Char → Option (List Char)
  | [], text => some text
  | _ :: _, [] => none
  | expected :: more, c :: rest => if expected = c then after? more rest else none

theorem after?_eq_some_iff {start text rest : List Char} :
    after? start text = some rest ↔ text = start ++ rest := by
  induction start generalizing text with
  | nil =>
    rw [after?, Option.some.injEq]
    rfl
  | cons expected more inductionHypothesis =>
    cases text with
    | nil => simp [after?]
    | cons c text =>
      rw [after?, List.cons_append, List.cons.injEq]
      by_cases same : expected = c
      · simp [same, inductionHypothesis]
      · simp [same, Ne.symm same]

/-- Whether a text begins with another one. -/
def beginsWith (text start : List Char) : Bool :=
  (after? start text).isSome

/-- Whether a text ends with another one. -/
def endsWith (text ending : List Char) : Bool :=
  beginsWith text.reverse ending.reverse

/-- Whether a text occurs within another one. -/
def occursIn (part : List Char) : List Char → Bool
  | [] => part.isEmpty
  | c :: rest => beginsWith (c :: rest) part || occursIn part rest

/-- The parts of a text between the occurrences of a mark. -/
def splitAtEach (mark : Char) : List Char → List (List Char)
  | [] => [[]]
  | c :: rest =>
    if c = mark then [] :: splitAtEach mark rest
    else
      match splitAtEach mark rest with
      | [] => [[c]]
      | part :: parts => (c :: part) :: parts

/-- What follows a given beginning of a string. -/
def stringAfter? (start text : String) : Option String :=
  (after? start.toList text.toList).map String.ofList

theorem stringAfter?_eq_some_iff {start text rest : String} :
    stringAfter? start text = some rest ↔ text = start ++ rest := by
  rw [stringAfter?, Option.map_eq_some_iff]
  constructor
  · rintro ⟨characters, found, rfl⟩
    have split := congrArg String.ofList (after?_eq_some_iff.mp found)
    rw [String.ofList_toList, String.ofList_append, String.ofList_toList] at split
    exact split
  · intro split
    refine ⟨rest.toList, after?_eq_some_iff.mpr ?_, String.ofList_toList⟩
    rw [split, String.toList_append]

end Text
end CharacterSheet
