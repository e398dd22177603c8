import CharacterSheet.Index.Basic
import CharacterSheet.Proofs.SortedMap
import Mathlib.Data.List.Basic

/-!
# Publishing in the index

A key that has a value keeps it, and a key that has none takes the first value
published, made finite.  What is refused on the way depends on the index
before, as long as no key is published twice in one go, which the keys of an
update never are.
-/

namespace CharacterSheet

/-- A number made finite is finite. -/
theorem Numeric.isFinite_orZero (value : Float) : (Numeric.orZero value).isFinite = true := by
  unfold Numeric.orZero
  split
  · assumption
  · decide

namespace Index

/-- The conflict that publishing a value would be, if it would be one. -/
def refusal? (index : Index) (key : String) (value : Float) : Option Conflict :=
  match index.get? key with
  | none => none
  | some existing =>
    if existing == Numeric.orZero value then none
    else some ⟨key, existing, Numeric.orZero value⟩

theorem get?_insert (index : Index) (key wanted : String) (value : Float) :
    get? ⟨index.values.insert key value⟩ wanted =
      if wanted = key then some value else index.get? wanted := by
  by_cases same : wanted = key
  · rw [if_pos same, same]
    exact SortedMap.find?_insert_self _ _ _
  · rw [if_neg same]
    exact SortedMap.find?_insert_of_ne _ _ same

/-- What publishing one value does to every key. -/
theorem get?_publishOrKeep (index : Index) (key wanted : String) (value : Float) :
    (index.publishOrKeep key value).get? wanted =
      (index.get? wanted).or (if wanted = key then some (Numeric.orZero value) else none) := by
  unfold publishOrKeep publish
  cases known : index.get? key with
  | none =>
    dsimp only
    rw [get?_insert]
    by_cases same : wanted = key
    · rw [if_pos same, if_pos same, same, known, Option.none_or]
    · rw [if_neg same, if_neg same, Option.or_none]
  | some existing =>
    have unchanged : index.get? wanted =
        (index.get? wanted).or
          (if wanted = key then some (Numeric.orZero value) else none) := by
      by_cases same : wanted = key
      · rw [same, known, Option.some_or]
      · rw [if_neg same, Option.or_none]
    dsimp only
    split
    · rename_i published succeeds
      split at succeeds
      · cases succeeds
        exact unchanged
      · cases succeeds
    · exact unchanged

/-- Publishing entries one after the other, and what is refused at each. -/
theorem publishAll_cons (index : Index) (key : String) (value : Float)
    (rest : List (String × Float)) :
    index.publishAll ((key, value) :: rest) =
      (((index.publishOrKeep key value).publishAll rest).1,
        (index.refusal? key value).toList ++
          ((index.publishOrKeep key value).publishAll rest).2) := by
  rw [publishAll]
  unfold publishOrKeep refusal? publish
  cases index.get? key with
  | none => rfl
  | some existing =>
    dsimp only
    by_cases same : existing == Numeric.orZero value
    · rw [if_pos same, if_pos same]
      rfl
    · rw [if_neg same, if_neg same]
      rfl

/-- What conflicts are listed along the way makes no difference to the index. -/
theorem publishAll_fst (index : Index) (entries : List (String × Float)) :
    (index.publishAll entries).1 =
      entries.foldl (fun index entry => index.publishOrKeep entry.1 entry.2) index := by
  induction entries generalizing index with
  | nil => rfl
  | cons entry rest inductionHypothesis =>
    rw [publishAll_cons, inductionHypothesis, List.foldl_cons]

/-- Of several entries under one key the first counts, unless the key had a
value before. -/
theorem get?_publishAll (index : Index) (entries : List (String × Float)) (wanted : String) :
    (index.publishAll entries).1.get? wanted =
      (index.get? wanted).or ((entries.lookup wanted).map Numeric.orZero) := by
  induction entries generalizing index with
  | nil => simp [publishAll]
  | cons entry rest inductionHypothesis =>
    rw [publishAll_cons]
    dsimp only
    rw [inductionHypothesis, get?_publishOrKeep, Option.or_assoc, List.lookup_cons]
    by_cases same : wanted = entry.1
    · simp [same]
    · simp [same, beq_false_of_ne same]

theorem refusal?_publishOrKeep_of_ne (index : Index) {key other : String} (value : Float)
    (refused : Float) (different : other ≠ key) :
    (index.publishOrKeep key value).refusal? other refused = index.refusal? other refused := by
  unfold refusal?
  rw [get?_publishOrKeep, if_neg different, Option.or_none]

/-- Entries under different keys do not get into each other's way. -/
theorem conflicts_publishAll (index : Index) (entries : List (String × Float))
    (distinct : (entries.map Prod.fst).Nodup) :
    (index.publishAll entries).2 =
      entries.filterMap fun entry => index.refusal? entry.1 entry.2 := by
  induction entries generalizing index with
  | nil => rfl
  | cons entry rest inductionHypothesis =>
    have parts := List.nodup_cons.mp distinct
    have later : ∀ other ∈ rest, (index.publishOrKeep entry.1 entry.2).refusal? other.1 other.2 =
        index.refusal? other.1 other.2 := by
      intro other member
      apply refusal?_publishOrKeep_of_ne
      intro same
      exact parts.1 (same ▸ List.mem_map_of_mem member)
    rw [publishAll_cons]
    dsimp only
    rw [inductionHypothesis _ parts.2, List.filterMap_congr later, List.filterMap_cons]
    cases index.refusal? entry.1 entry.2 <;> rfl

theorem Update.get?_ofList {entries : List (String × Float)}
    (distinct : (entries.map Prod.fst).Nodup) (key : String) :
    (Update.ofList entries).get? key = entries.lookup key := by
  have found := SortedMap.find?_insertAll SortedMap.empty distinct key
  rw [SortedMap.find?_empty, Option.or_none] at found
  exact found

/-- An update holds the keys that it is made of. -/
theorem Update.isSome_get?_ofList_iff {entries : List (String × Float)} {key : String} :
    ((Update.ofList entries).get? key).isSome = true ↔ key ∈ entries.map Prod.fst := by
  refine ⟨fun found => ?_, SortedMap.isSome_find?_ofList⟩
  rcases Option.isSome_iff_exists.mp found with ⟨value, isValue⟩
  exact List.mem_map_of_mem (f := Prod.fst) (SortedMap.mem_of_find?_ofList isValue)

/-- An update changes only the keys that have no value. -/
theorem get?_apply (index : Index) (update : Update) (wanted : String) :
    (index.apply update).1.get? wanted =
      (index.get? wanted).or ((update.get? wanted).map Numeric.orZero) := by
  rw [apply, get?_publishAll, SortedMap.lookup_toList]
  rfl

/-- Applying an update of entries under different keys is as good as publishing
the entries. -/
theorem get?_apply_ofList (index : Index) {entries : List (String × Float)}
    (distinct : (entries.map Prod.fst).Nodup) (wanted : String) :
    (index.apply (Update.ofList entries)).1.get? wanted =
      (index.publishAll entries).1.get? wanted := by
  rw [get?_apply, get?_publishAll, Update.get?_ofList distinct]

/-- An update is refused entry by entry, in key order. -/
theorem conflicts_apply (index : Index) (update : Update) :
    (index.apply update).2 =
      update.values.toList.filterMap fun entry => index.refusal? entry.1 entry.2 :=
  conflicts_publishAll index _ update.values.nodup_keys

end Index

end CharacterSheet
