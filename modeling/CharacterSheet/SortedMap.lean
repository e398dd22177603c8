/-!
# Finite maps in key order

Most of the data of a character sheet is keyed: variables by name, properties
by member, table rows by level.  Whatever is listed from such a collection
comes out in ascending key order, so the order belongs to the type.

A `SortedMap` is a list of entries whose keys strictly ascend.  Since a finite
map then has exactly one representation, equality of maps is equality of
entries.  The main statements give lookup after insertion:
`find?_insert_self` and `find?_insert_of_ne`.
-/

namespace CharacterSheet

/-- Types whose values can be keys: a decidable strict order in which
incomparable keys are equal. -/
class OrderedKey (κ : Type) extends LT κ where
  /-- The order is decidable. -/
  decideLt : ∀ a b : κ, Decidable (a < b)
  /-- No key lies below itself. -/
  irreflexive : ∀ a : κ, ¬ a < a
  /-- The order is transitive. -/
  transitive : ∀ a b c : κ, a < b → b < c → a < c
  /-- Keys that do not differ in order do not differ at all. -/
  antisymmetric : ∀ a b : κ, ¬ a < b → ¬ b < a → a = b

instance OrderedKey.decidableLt {κ : Type} [OrderedKey κ] (a b : κ) : Decidable (a < b) :=
  OrderedKey.decideLt a b

/-- Texts are ordered by code point, which is also the order of their UTF-8
bytes. -/
instance : OrderedKey String where
  decideLt := inferInstance
  irreflexive := String.lt_irrefl
  transitive _ _ _ := String.lt_trans
  antisymmetric _ _ notBelow notAbove := String.le_antisymm notAbove notBelow

instance : OrderedKey Nat where
  decideLt := inferInstance
  irreflexive := Nat.lt_irrefl
  transitive _ _ _ := Nat.lt_trans
  antisymmetric _ _ notBelow notAbove :=
    Nat.le_antisymm (Nat.le_of_not_lt notAbove) (Nat.le_of_not_lt notBelow)

/-- Order the values of a type by a rank that tells them apart. -/
@[reducible]
def OrderedKey.ofRank {κ : Type} (rank : κ → Nat)
    (separates : ∀ a b : κ, rank a = rank b → a = b) : OrderedKey κ where
  lt a b := rank a < rank b
  decideLt a b := inferInstanceAs (Decidable (rank a < rank b))
  irreflexive a := Nat.lt_irrefl (rank a)
  transitive _ _ _ := Nat.lt_trans
  antisymmetric a b notBelow notAbove :=
    separates a b (Nat.le_antisymm (Nat.le_of_not_lt notAbove) (Nat.le_of_not_lt notBelow))

namespace SortedMap

section Entries

variable {κ α β : Type} [OrderedKey κ]

/-- Keys strictly ascend along the list. -/
def Ascending (entries : List (κ × α)) : Prop :=
  entries.Pairwise fun first second => first.1 < second.1

/-- Put an entry at its place in key order; an entry under the same key is
replaced. -/
def insertEntry (key : κ) (value : α) : List (κ × α) → List (κ × α)
  | [] => [(key, value)]
  | (other, kept) :: rest =>
    if key < other then (key, value) :: (other, kept) :: rest
    else if other < key then (other, kept) :: insertEntry key value rest
    else (key, value) :: rest

/-- The value stored under a key. -/
def valueAt? (key : κ) : List (κ × α) → Option α
  | [] => none
  | (other, value) :: rest =>
    if key < other then none
    else if other < key then valueAt? key rest
    else some value

/-- Drop the entry under a key. -/
def eraseEntry (key : κ) : List (κ × α) → List (κ × α)
  | [] => []
  | (other, value) :: rest =>
    if other < key then (other, value) :: eraseEntry key rest
    else if key < other then (other, value) :: rest
    else rest

theorem mem_of_mem_insertEntry {key : κ} {value : α} {entry : κ × α} :
    {entries : List (κ × α)} → entry ∈ insertEntry key value entries →
      entry = (key, value) ∨ entry ∈ entries
  | [], member => Or.inl (by simpa [insertEntry] using member)
  | (other, kept) :: rest, member => by
    unfold insertEntry at member
    split at member
    · simpa using member
    · split at member
      · rcases List.mem_cons.mp member with same | later
        · exact Or.inr (by simp [same])
        · rcases mem_of_mem_insertEntry later with new | old
          · exact Or.inl new
          · exact Or.inr (by simp [old])
      · rcases List.mem_cons.mp member with same | later
        · exact Or.inl same
        · exact Or.inr (by simp [later])

theorem ascending_insertEntry {key : κ} {value : α} :
    {entries : List (κ × α)} → Ascending entries → Ascending (insertEntry key value entries)
  | [], _ => by simp [insertEntry, Ascending]
  | (other, kept) :: rest, ordered => by
    have above := (List.pairwise_cons.mp ordered).1
    have restOrdered : Ascending rest := (List.pairwise_cons.mp ordered).2
    unfold insertEntry
    split
    · rename_i below
      refine List.pairwise_cons.mpr ⟨fun entry member => ?_, ordered⟩
      rcases List.mem_cons.mp member with same | later
      · simpa [same] using below
      · exact OrderedKey.transitive _ _ _ below (above entry later)
    · rename_i notBelow
      split
      · rename_i aboveOther
        refine List.pairwise_cons.mpr
          ⟨fun entry member => ?_, ascending_insertEntry restOrdered⟩
        rcases mem_of_mem_insertEntry member with same | later
        · simpa [same] using aboveOther
        · exact above entry later
      · rename_i notAbove
        have same : key = other := OrderedKey.antisymmetric _ _ notBelow notAbove
        exact List.pairwise_cons.mpr ⟨fun entry member => same ▸ above entry member, restOrdered⟩

theorem mem_of_mem_eraseEntry {key : κ} {entry : κ × α} :
    {entries : List (κ × α)} → entry ∈ eraseEntry key entries → entry ∈ entries
  | [], member => by simp [eraseEntry] at member
  | (other, kept) :: rest, member => by
    unfold eraseEntry at member
    split at member
    · rcases List.mem_cons.mp member with same | later
      · simp [same]
      · exact List.mem_cons_of_mem _ (mem_of_mem_eraseEntry later)
    · split at member
      · exact member
      · exact List.mem_cons_of_mem _ member

theorem ascending_eraseEntry {key : κ} :
    {entries : List (κ × α)} → Ascending entries → Ascending (eraseEntry key entries)
  | [], _ => by simp [eraseEntry, Ascending]
  | (other, kept) :: rest, ordered => by
    have above := (List.pairwise_cons.mp ordered).1
    have restOrdered : Ascending rest := (List.pairwise_cons.mp ordered).2
    unfold eraseEntry
    split
    · exact List.pairwise_cons.mpr
        ⟨fun entry member => above entry (mem_of_mem_eraseEntry member),
          ascending_eraseEntry restOrdered⟩
    · split
      · exact ordered
      · exact restOrdered

theorem valueAt?_insertEntry_self {key : κ} {value : α} :
    (entries : List (κ × α)) → valueAt? key (insertEntry key value entries) = some value
  | [] => by simp [insertEntry, valueAt?, OrderedKey.irreflexive]
  | (other, kept) :: rest => by
    unfold insertEntry
    split
    · simp [valueAt?, OrderedKey.irreflexive]
    · split
      · simp [valueAt?, *, valueAt?_insertEntry_self rest]
      · simp [valueAt?, OrderedKey.irreflexive]

theorem valueAt?_insertEntry_of_ne {key wanted : κ} {value : α} (different : wanted ≠ key) :
    {entries : List (κ × α)} → Ascending entries →
      valueAt? wanted (insertEntry key value entries) = valueAt? wanted entries
  | [], _ => by
    by_cases below : wanted < key
    · simp [insertEntry, valueAt?, below]
    · by_cases above : key < wanted
      · simp [insertEntry, valueAt?, below, above]
      · exact absurd (OrderedKey.antisymmetric _ _ below above) different
  | (other, kept) :: rest, ordered => by
    have restOrdered : Ascending rest := (List.pairwise_cons.mp ordered).2
    unfold insertEntry
    split
    · rename_i keyBelow
      by_cases below : wanted < key
      · have belowOther := OrderedKey.transitive _ _ _ below keyBelow
        simp [valueAt?, below, belowOther]
      · by_cases above : key < wanted
        · simp [valueAt?, below, above]
        · exact absurd (OrderedKey.antisymmetric _ _ below above) different
    · rename_i notBelow
      split
      · by_cases below : wanted < other
        · simp [valueAt?, below]
        · by_cases above : other < wanted
          · simp [valueAt?, below, above, valueAt?_insertEntry_of_ne different restOrdered]
          · simp [valueAt?, below, above]
      · rename_i notAbove
        have same : key = other := OrderedKey.antisymmetric _ _ notBelow notAbove
        subst same
        by_cases below : wanted < key
        · simp [valueAt?, below]
        · by_cases above : key < wanted
          · simp [valueAt?, below, above]
          · exact absurd (OrderedKey.antisymmetric _ _ below above) different

end Entries

end SortedMap

/-- A finite map whose entries are kept in ascending key order. -/
structure SortedMap (κ α : Type) [OrderedKey κ] where
  /-- The entries in key order. -/
  toList : List (κ × α)
  /-- The keys strictly ascend. -/
  ordered : SortedMap.Ascending toList

namespace SortedMap

variable {κ α β : Type} [OrderedKey κ]

@[ext]
theorem ext : {first second : SortedMap κ α} → first.toList = second.toList → first = second
  | ⟨_, _⟩, ⟨_, _⟩, same => by cases same; rfl

instance [DecidableEq κ] [DecidableEq α] : DecidableEq (SortedMap κ α) := fun first second =>
  decidable_of_iff (first.toList = second.toList) ⟨ext, fun same => same ▸ rfl⟩

instance [BEq κ] [BEq α] : BEq (SortedMap κ α) := ⟨fun first second =>
  first.toList == second.toList⟩

def empty : SortedMap κ α := ⟨[], List.Pairwise.nil⟩

instance : Inhabited (SortedMap κ α) := ⟨empty⟩

/-- Store a value under a key, in place of a value stored there before. -/
def insert (map : SortedMap κ α) (key : κ) (value : α) : SortedMap κ α :=
  ⟨insertEntry key value map.toList, ascending_insertEntry map.ordered⟩

/-- Remove the value stored under a key. -/
def erase (map : SortedMap κ α) (key : κ) : SortedMap κ α :=
  ⟨eraseEntry key map.toList, ascending_eraseEntry map.ordered⟩

/-- The value stored under a key. -/
def find? (map : SortedMap κ α) (key : κ) : Option α :=
  valueAt? key map.toList

/-- Whether a value is stored under a key. -/
def contains (map : SortedMap κ α) (key : κ) : Bool :=
  (map.find? key).isSome

/-- The keys in ascending order. -/
def keys (map : SortedMap κ α) : List κ :=
  map.toList.map Prod.fst

/-- The values in the order of their keys. -/
def values (map : SortedMap κ α) : List α :=
  map.toList.map Prod.snd

/-- The number of entries. -/
def size (map : SortedMap κ α) : Nat :=
  map.toList.length

/-- Whether there are no entries. -/
def isEmpty (map : SortedMap κ α) : Bool :=
  map.toList.isEmpty

/-- Apply a function to every value; the keys stay. -/
def mapValues (f : κ → α → β) (map : SortedMap κ α) : SortedMap κ β :=
  ⟨map.toList.map fun entry => (entry.1, f entry.1 entry.2), by
    have ordered : Ascending map.toList := map.ordered
    unfold Ascending at ordered ⊢
    exact List.pairwise_map.mpr ordered⟩

/-- Insert entries one after the other; of two entries under one key the later
one stays. -/
def insertAll (map : SortedMap κ α) (entries : List (κ × α)) : SortedMap κ α :=
  entries.foldl (fun current entry => current.insert entry.1 entry.2) map

/-- The map of a list of entries; of two entries under one key the later one
stays. -/
def ofList (entries : List (κ × α)) : SortedMap κ α :=
  empty.insertAll entries

@[simp]
theorem find?_empty (key : κ) : (empty : SortedMap κ α).find? key = none := rfl

@[simp]
theorem find?_insert_self (map : SortedMap κ α) (key : κ) (value : α) :
    (map.insert key value).find? key = some value :=
  valueAt?_insertEntry_self map.toList

theorem find?_insert_of_ne (map : SortedMap κ α) {key wanted : κ} (value : α)
    (different : wanted ≠ key) : (map.insert key value).find? wanted = map.find? wanted :=
  valueAt?_insertEntry_of_ne different map.ordered

end SortedMap

end CharacterSheet
