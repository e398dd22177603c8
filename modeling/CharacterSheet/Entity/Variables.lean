import CharacterSheet.Entity.Basic
import CharacterSheet.Index.Basic

/-!
# Entities as variables

The numbers within an entity can be read like published values: a number at a
path of members under the path's key, a truth value as one or zero, and an
array as its length.  Texts and nulls give nothing, and neither does anything
nested more than ten objects deep.
-/

namespace CharacterSheet
namespace Entity

/-- How many objects may enclose a value that becomes a variable. -/
def maxVariableDepth : Nat := 10

mutual

/-- The variables within a value, given its key and the number of objects that
may still be entered. -/
def variablesWithin (key : String) (depth : Nat) : Json → List (String × Float)
  | .num number => [(key, number.toFloat)]
  | .bool value => [(key, if value then 1 else 0)]
  | .arr items => [(key ++ ".length", Float.ofNat items.length)]
  | .obj members =>
    match depth with
    | 0 => []
    | depth + 1 => variablesOfMembers key depth members
  | .str _ => []
  | .null => []

/-- The variables within the members of an object. -/
def variablesOfMembers (key : String) (depth : Nat) :
    List (String × Json) → List (String × Float)
  | [] => []
  | (name, value) :: rest =>
    variablesWithin (key ++ "." ++ name) depth value ++ variablesOfMembers key depth rest

end

/-- The variables within a value, under keys that begin with a given one.  Of
two values under one key the later counts. -/
def variableValues (value : Json) (key : String) : SortedMap String Float :=
  SortedMap.ofList (variablesWithin key maxVariableDepth value)

/-- An index to which the variables within an entity are added.  Keys that the
index has keep their values. -/
def mergeVariables (index : Index) (entity : Entity) (key : String) : Index :=
  (variableValues entity.view key).toList.foldl
    (fun merged entry =>
      if merged.contains entry.1 then merged else merged.publishOrKeep entry.1 entry.2)
    index

end Entity
end CharacterSheet
