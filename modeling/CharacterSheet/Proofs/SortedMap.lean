import CharacterSheet.SortedMap
import Mathlib.Data.List.Nodup

/-!
# Entries of finite maps

Looking a key up in a map is the same as looking for it in the list of its
entries, because no two entries have one key.  The same goes for the entries
that a map is made of, provided that their keys differ.  A map is determined by
what is found in it.
-/

namespace CharacterSheet

theorem lookup_eq_none_of_not_mem {κ α : Type} [BEq κ] [LawfulBEq κ] {entries : List (κ × α)}
    {key : κ} (absent : key ∉ entries.map Prod.fst) : entries.lookup key = none := by
  apply List.lookup_eq_none_iff.mpr
  intro entry member
  apply bne_iff_ne.mpr
  intro same
  rw [same] at absent
  exact absent (List.mem_map_of_mem member)

/-- If no key stands in two entries, each is found under its key. -/
theorem lookup_eq_some_of_mem {κ α : Type} [BEq κ] [LawfulBEq κ] {entries : List (κ × α)}
    (distinct : (entries.map Prod.fst).Nodup) {key : κ} {value : α}
    (member : (key, value) ∈ entries) : entries.lookup key = some value := by
  rcases List.append_of_mem member with ⟨before, after, rfl⟩
  rw [List.map_append, List.map_cons] at distinct
  have apart := (List.nodup_append.mp distinct).2.2
  have absent : key ∉ before.map Prod.fst :=
    fun early => apart key early key List.mem_cons_self rfl
  rw [List.lookup_append, lookup_eq_none_of_not_mem absent, List.lookup_cons_self]
  rfl

/-- If no key stands in two entries, those found are those that there are. -/
theorem lookup_eq_some_iff_mem {κ α : Type} [BEq κ] [LawfulBEq κ] {entries : List (κ × α)}
    (distinct : (entries.map Prod.fst).Nodup) {key : κ} {value : α} :
    entries.lookup key = some value ↔ (key, value) ∈ entries := by
  refine ⟨fun found => ?_, lookup_eq_some_of_mem distinct⟩
  rcases List.lookup_eq_some_iff.mp found with ⟨before, after, split, -⟩
  rw [split]
  exact List.mem_append_right _ List.mem_cons_self

/-- If a key tells the items of a list apart, it leads to the one item that has
it. -/
theorem find?_key_eq_some_iff {κ α : Type} [BEq κ] [LawfulBEq κ] (key : α → κ) {items : List α}
    (distinct : (items.map key).Nodup) {wanted : κ} {item : α} :
    items.find? (key · == wanted) = some item ↔ item ∈ items ∧ key item = wanted := by
  constructor
  · intro found
    exact ⟨List.mem_of_find?_eq_some found, by simpa using List.find?_some found⟩
  · rintro ⟨member, rfl⟩
    cases found : items.find? (key · == key item) with
    | none =>
      have missed := List.find?_eq_none.mp found item member
      exact absurd (beq_self_eq_true _) missed
    | some other =>
      have same : key other = key item := by simpa using List.find?_some found
      rw [List.inj_on_of_nodup_map distinct (List.mem_of_find?_eq_some found) member same]

theorem filter_key_eq_singleton {κ α : Type} [BEq κ] [LawfulBEq κ] (key : α → κ) {items : List α}
    (distinct : (items.map key).Nodup) {item : α} (member : item ∈ items) :
    items.filter (key · == key item) = [item] := by
  rcases List.append_of_mem member with ⟨before, after, rfl⟩
  rw [List.map_append, List.map_cons, List.nodup_middle, List.nodup_cons, List.mem_append,
    not_or] at distinct
  have others : ∀ {rest : List α}, key item ∉ rest.map key →
      rest.filter (key · == key item) = [] := by
    intro rest apart
    refine List.filter_eq_nil_iff.mpr fun other listed same => apart ?_
    exact eq_of_beq same ▸ List.mem_map_of_mem listed
  rw [List.filter_append, others distinct.1.1, List.nil_append, List.filter_cons,
    if_pos (beq_self_eq_true _), others distinct.1.2]

theorem any_key_iff {κ α : Type} [BEq κ] [LawfulBEq κ] (key : α → κ) {items : List α}
    {wanted : κ} : items.any (key · == wanted) = true ↔ wanted ∈ items.map key := by
  rw [List.any_eq_true, List.mem_map]
  exact exists_congr fun item => and_congr_right fun _ => beq_iff_eq

namespace SortedMap

variable {κ α : Type} [OrderedKey κ]

theorem nodup_keys (map : SortedMap κ α) : (map.toList.map Prod.fst).Nodup := by
  rw [List.nodup_iff_pairwise_ne, List.pairwise_map]
  refine List.Pairwise.imp ?_ map.ordered
  intro first second below same
  rw [same] at below
  exact OrderedKey.irreflexive _ below

theorem lookup_eq_valueAt? [BEq κ] [LawfulBEq κ] {key : κ} :
    {entries : List (κ × α)} → Ascending entries → entries.lookup key = valueAt? key entries
  | [], _ => rfl
  | (other, value) :: rest, ordered => by
    have above := (List.pairwise_cons.mp ordered).1
    have restOrdered : Ascending rest := (List.pairwise_cons.mp ordered).2
    unfold valueAt?
    by_cases same : key = other
    · subst same
      simp [OrderedKey.irreflexive]
    · have different : (key == other) = false := beq_false_of_ne same
      rw [List.lookup_cons, different]
      by_cases below : key < other
      · rw [if_pos below]
        apply List.lookup_eq_none_iff.mpr
        intro entry member
        have further := OrderedKey.transitive _ _ _ below (above entry member)
        apply bne_iff_ne.mpr
        intro equal
        rw [equal] at further
        exact OrderedKey.irreflexive _ further
      · have beyond : other < key := by
          apply Classical.byContradiction
          intro notOver
          exact same (OrderedKey.antisymmetric _ _ below notOver)
        rw [if_neg below, if_pos beyond]
        exact lookup_eq_valueAt? restOrdered

/-- The first entry under a key is the only one. -/
theorem lookup_toList [BEq κ] [LawfulBEq κ] (map : SortedMap κ α) (key : κ) :
    map.toList.lookup key = map.find? key :=
  lookup_eq_valueAt? map.ordered

/-- Entries under different keys are all found after they are inserted. -/
theorem find?_insertAll [BEq κ] [LawfulBEq κ] (map : SortedMap κ α) {entries : List (κ × α)}
    (distinct : (entries.map Prod.fst).Nodup) (key : κ) :
    (map.insertAll entries).find? key = (entries.lookup key).or (map.find? key) := by
  induction entries generalizing map with
  | nil => rfl
  | cons entry rest inductionHypothesis =>
    have parts := List.nodup_cons.mp distinct
    have unfolded : map.insertAll (entry :: rest) =
        (map.insert entry.1 entry.2).insertAll rest :=
      rfl
    rw [unfolded, inductionHypothesis _ parts.2, List.lookup_cons]
    by_cases same : key = entry.1
    · subst same
      rw [lookup_eq_none_of_not_mem parts.1, find?_insert_self, beq_self_eq_true]
      rfl
    · rw [find?_insert_of_ne _ _ same, beq_false_of_ne same]

/-- Of several entries under one key the last one counts. -/
theorem find?_insertAll_reverse [BEq κ] [LawfulBEq κ] (map : SortedMap κ α)
    (entries : List (κ × α)) (key : κ) :
    (map.insertAll entries).find? key = (entries.reverse.lookup key).or (map.find? key) := by
  induction entries generalizing map with
  | nil => rfl
  | cons entry rest inductionHypothesis =>
    have unfolded : map.insertAll (entry :: rest) =
        (map.insert entry.1 entry.2).insertAll rest :=
      rfl
    rw [unfolded, inductionHypothesis, List.reverse_cons, List.lookup_append, Option.or_assoc,
      List.lookup_cons]
    by_cases same : key = entry.1
    · rw [same, find?_insert_self, beq_self_eq_true]
      rfl
    · rw [find?_insert_of_ne _ _ same, beq_false_of_ne same]
      rfl

theorem find?_ofList [BEq κ] [LawfulBEq κ] (entries : List (κ × α)) (key : κ) :
    (ofList entries).find? key = entries.reverse.lookup key := by
  rw [ofList, find?_insertAll_reverse, find?_empty, Option.or_none]

/-- What is found under a key is the value of the last entry for it. -/
theorem find?_ofList_eq_getLast? [BEq κ] [LawfulBEq κ] (entries : List (κ × α)) (key : κ) :
    (ofList entries).find? key =
      ((entries.filter fun entry => key == entry.1).map Prod.snd).getLast? := by
  rw [find?_ofList]
  induction entries with
  | nil => rfl
  | cons entry rest inductionHypothesis =>
    rw [List.reverse_cons, List.lookup_append, inductionHypothesis, List.lookup_cons,
      List.filter_cons]
    cases key == entry.1 with
    | true =>
      rw [if_pos rfl, List.map_cons, List.getLast?_cons]
      cases ((rest.filter fun entry => key == entry.1).map Prod.snd).getLast? <;> rfl
    | false => exact Option.or_none

/-- The entries are what is found. -/
theorem mem_toList_iff {map : SortedMap κ α} {key : κ} {value : α} :
    (key, value) ∈ map.toList ↔ map.find? key = some value := by
  classical
  rw [← lookup_toList, lookup_eq_some_iff_mem map.nodup_keys]

theorem ext_find? {first second : SortedMap κ α}
    (same : ∀ key, first.find? key = second.find? key) : first = second := by
  have members : ∀ entry, entry ∈ first.toList ↔ entry ∈ second.toList := by
    rintro ⟨key, value⟩
    rw [mem_toList_iff, mem_toList_iff, same]
  have nodup : ∀ map : SortedMap κ α, map.toList.Nodup := fun map => map.nodup_keys.of_map
  have perm := (List.perm_ext_iff_of_nodup (nodup first) (nodup second)).mpr members
  refine ext (perm.eq_of_pairwise ?_ first.ordered second.ordered)
  intro earlier later _ _ below above
  exact absurd (OrderedKey.transitive _ _ _ below above) (OrderedKey.irreflexive _)

/-- A map is made of its entries, whatever their order. -/
theorem ofList_of_perm {entries : List (κ × α)} {map : SortedMap κ α}
    (perm : entries.Perm map.toList) : ofList entries = map := by
  classical
  apply ext_find?
  intro key
  have sameEntries : entries.reverse.Perm map.toList := (List.reverse_perm entries).trans perm
  have distinct : (entries.reverse.map Prod.fst).Nodup :=
    (sameEntries.map Prod.fst).nodup_iff.mpr map.nodup_keys
  rw [find?_ofList]
  apply Option.ext
  intro value
  rw [lookup_eq_some_iff_mem distinct, sameEntries.mem_iff, mem_toList_iff]

/-- If all keys differ, the entries of a map are those that it is made of. -/
theorem perm_toList_ofList {entries : List (κ × α)} (distinct : (entries.map Prod.fst).Nodup) :
    (ofList entries).toList.Perm entries := by
  classical
  refine (List.perm_ext_iff_of_nodup (nodup_keys _).of_map distinct.of_map).mpr ?_
  rintro ⟨key, value⟩
  have reversed : (entries.reverse.map Prod.fst).Nodup := by
    rw [List.map_reverse]
    exact List.nodup_reverse.mpr distinct
  rw [mem_toList_iff, find?_ofList, lookup_eq_some_iff_mem reversed, List.mem_reverse]

theorem mem_eraseEntry_iff {key : κ} {entry : κ × α} :
    {entries : List (κ × α)} → Ascending entries →
      (entry ∈ eraseEntry key entries ↔ entry ∈ entries ∧ entry.1 ≠ key)
  | [], _ => by simp [eraseEntry]
  | (other, value) :: rest, ordered => by
    have above := (List.pairwise_cons.mp ordered).1
    have restOrdered : Ascending rest := (List.pairwise_cons.mp ordered).2
    have apart : ∀ {low high : κ}, low < high → high ≠ low :=
      fun below same => OrderedKey.irreflexive _ (same ▸ below)
    unfold eraseEntry
    split
    · rename_i below
      rw [List.mem_cons, List.mem_cons, mem_eraseEntry_iff restOrdered, or_and_right]
      refine or_congr_left (iff_self_and.mpr ?_)
      rintro rfl
      exact (apart below).symm
    · rename_i notBelow
      split
      · rename_i below
        refine iff_self_and.mpr fun member => ?_
        rcases List.mem_cons.mp member with rfl | later
        · exact apart below
        · exact apart (OrderedKey.transitive _ _ _ below (above entry later))
      · rename_i notAbove
        obtain rfl : other = key := OrderedKey.antisymmetric _ _ notBelow notAbove
        rw [List.mem_cons]
        constructor
        · exact fun later => ⟨Or.inr later, apart (above entry later)⟩
        · rintro ⟨rfl | later, different⟩
          · exact absurd rfl different
          · exact later

theorem find?_erase [DecidableEq κ] (map : SortedMap κ α) (key wanted : κ) :
    (map.erase key).find? wanted = if wanted = key then none else map.find? wanted := by
  apply Option.ext
  intro value
  rw [← mem_toList_iff, erase, mem_eraseEntry_iff map.ordered, mem_toList_iff]
  by_cases same : wanted = key <;> simp [same]

/-- What is erased key by key is not found any more, and the rest stays. -/
theorem find?_foldl_erase [DecidableEq κ] (map : SortedMap κ α) (keys : List κ) (wanted : κ) :
    (keys.foldl erase map).find? wanted = if wanted ∈ keys then none else map.find? wanted := by
  induction keys generalizing map with
  | nil => rfl
  | cons key rest inductionHypothesis =>
    rw [List.foldl_cons, inductionHypothesis, find?_erase]
    by_cases same : wanted = key <;> simp [same]

theorem find?_mapValues {β : Type} (view : κ → α → β) (map : SortedMap κ α) (key : κ) :
    (map.mapValues view).find? key = (map.find? key).map (view key) := by
  apply Option.ext
  intro value
  rw [← mem_toList_iff, Option.map_eq_some_iff, mapValues, List.mem_map]
  constructor
  · rintro ⟨⟨known, kept⟩, member, same⟩
    cases same
    exact ⟨kept, mem_toList_iff.mp member, rfl⟩
  · rintro ⟨kept, found, same⟩
    exact ⟨(key, kept), mem_toList_iff.mpr found, by rw [same]⟩

theorem mapValues_insert {β : Type} (view : κ → α → β) (map : SortedMap κ α) (key : κ)
    (value : α) :
    (map.insert key value).mapValues view = (map.mapValues view).insert key (view key value) := by
  apply ext_find?
  intro wanted
  rw [find?_mapValues]
  by_cases same : wanted = key
  · rw [same, find?_insert_self, find?_insert_self, Option.map_some]
  · rw [find?_insert_of_ne _ _ same, find?_insert_of_ne _ _ same, find?_mapValues]

/-- Applying a function to all values of a map is applying it to the entries
that the map is made of. -/
theorem mapValues_ofList {β : Type} (view : κ → α → β) (entries : List (κ × α)) :
    (ofList entries).mapValues view =
      ofList (entries.map fun entry => (entry.1, view entry.1 entry.2)) := by
  have inserted : ∀ map : SortedMap κ α, (map.insertAll entries).mapValues view =
      (map.mapValues view).insertAll (entries.map fun entry => (entry.1, view entry.1 entry.2)) := by
    induction entries with
    | nil => exact fun _ => rfl
    | cons entry rest inductionHypothesis =>
      intro map
      have unfolded : map.insertAll (entry :: rest) = (map.insert entry.1 entry.2).insertAll rest :=
        rfl
      rw [unfolded, inductionHypothesis, mapValues_insert]
      rfl
  exact inserted empty

theorem isSome_find?_ofList {entries : List (κ × α)} {key : κ}
    (member : key ∈ entries.map Prod.fst) : ((ofList entries).find? key).isSome = true := by
  have kept : ∀ (rest : List (κ × α)) (map : SortedMap κ α), (map.find? key).isSome = true →
      ((map.insertAll rest).find? key).isSome = true := by
    intro rest
    induction rest with
    | nil => exact fun _ => id
    | cons entry rest inductionHypothesis =>
      intro map known
      apply inductionHypothesis
      by_cases same : key = entry.1
      · rw [same, find?_insert_self]
        rfl
      · rwa [find?_insert_of_ne _ _ same]
  rcases List.mem_map.mp member with ⟨entry, listed, rfl⟩
  rcases List.append_of_mem listed with ⟨before, after, rfl⟩
  have split : ofList (before ++ entry :: after) =
      ((ofList before).insert entry.1 entry.2).insertAll after := by
    rw [ofList, insertAll, List.foldl_append]
    rfl
  rw [split]
  apply kept
  rw [find?_insert_self]
  rfl

theorem mem_of_find?_ofList {entries : List (κ × α)} {key : κ} {value : α}
    (found : (ofList entries).find? key = some value) : (key, value) ∈ entries := by
  classical
  rw [find?_ofList] at found
  rcases List.lookup_eq_some_iff.mp found with ⟨before, after, split, -⟩
  rw [← List.mem_reverse, split]
  exact List.mem_append_right _ List.mem_cons_self

/-- If all entries under a key have one value, this value is found. -/
theorem find?_ofList_of_agree {entries : List (κ × α)} {key : κ} {value : α}
    (member : (key, value) ∈ entries)
    (agree : ∀ other, (key, other) ∈ entries → other = value) :
    (ofList entries).find? key = some value := by
  rcases Option.isSome_iff_exists.mp
    (isSome_find?_ofList (List.mem_map_of_mem (f := Prod.fst) member)) with ⟨other, found⟩
  rw [found, agree other (mem_of_find?_ofList found)]

end SortedMap
end CharacterSheet
