import CharacterSheet.Text.Affix

/-!
# Custom variables

A custom variable is a named number that the rules define beside the fixed
statistics.  Formulas reach it under the key `customVariable.<name>`.
-/

namespace CharacterSheet

/-- The name of a custom variable. -/
structure VariableId where
  name : String
  deriving DecidableEq, Inhabited

namespace VariableId

/-- The first part of the keys of custom variables. -/
def namespaceKey : String := "customVariable"

/-- The key under which the variable is published. -/
def indexKey (id : VariableId) : String :=
  namespaceKey ++ "." ++ id.name

/-- The variable that a key belongs to.  The empty name belongs to none. -/
def ofIndexKey? (key : String) : Option VariableId :=
  match Text.stringAfter? (namespaceKey ++ ".") key with
  | none => none
  | some name => if name = "" then none else some ⟨name⟩

/-- A key belongs to the variable whose key it is, provided that the variable
has a name. -/
theorem ofIndexKey?_eq_some_iff {key : String} {id : VariableId} :
    ofIndexKey? key = some id ↔ key = id.indexKey ∧ id.name ≠ "" := by
  have after : ∀ name, Text.stringAfter? (namespaceKey ++ ".") key = some name ↔
      key = namespaceKey ++ "." ++ name :=
    fun _ => Text.stringAfter?_eq_some_iff
  unfold ofIndexKey?
  constructor
  · intro found
    split at found
    · cases found
    · rename_i name following
      split at found
      · cases found
      · rename_i named
        cases found
        exact ⟨(after name).mp following, named⟩
  · rintro ⟨same, named⟩
    rw [(after id.name).mpr same]
    dsimp only
    rw [if_neg named]

/-- The text by which a formula refers to the variable. -/
def reference (id : VariableId) : String :=
  "@" ++ id.indexKey

end VariableId

end CharacterSheet
