import CharacterSheet.Json.Record
import CharacterSheet.Proofs.SortedMap

/-!
# Data that is decoded again

A value is restored if decoding the data made of it gives it back.  For a
record this is a matter of its members: each is found in the object under its
own name, and what is written there is decoded again.  A member that is left
out is decoded to what it stands for, no value or an empty list.
-/

namespace CharacterSheet

/-- A value is decoded again from the data made of it, and that is not the null
which stands for no value. -/
structure Restores {α : Type} (encode : α → Json) (decode : Json → Option α) (value : α) :
    Prop where
  decoded : decode (encode value) = some value
  written : encode value ≠ .null

namespace Members

/-- The value of the last member of a name, which is the one that an object
keeps. -/
def last? (members : Members) (name : String) : Option Json :=
  members.reverse.lookup name

variable {α : Type}

@[simp]
theorem last?_nil (wanted : String) : last? [] wanted = none := rfl

@[simp]
theorem last?_append (first second : Members) (wanted : String) :
    last? (first ++ second) wanted = (second.last? wanted).or (first.last? wanted) := by
  rw [last?, List.reverse_append, List.lookup_append]
  rfl

@[simp]
theorem last?_cons (name : String) (value : Json) (rest : Members) (wanted : String) :
    last? ((name, value) :: rest) wanted =
      (rest.last? wanted).or (if wanted = name then some value else none) := by
  rw [last?, List.reverse_cons, List.lookup_append, List.lookup_cons]
  by_cases same : wanted = name
  · rw [if_pos same, same, beq_self_eq_true]
    rfl
  · rw [if_neg same, beq_false_of_ne same]
    rfl

@[simp]
theorem last?_ofOption (name : String) (encode : α → Json) (value : Option α) (wanted : String) :
    (ofOption name encode value).last? wanted =
      if wanted = name then value.map encode else none := by
  cases value with
  | none => simp [ofOption]
  | some kept => simp [ofOption]

@[simp]
theorem last?_ofItems (name : String) (encode : α → Json) (items : List α) (wanted : String) :
    (ofItems name encode items).last? wanted =
      if wanted = name then if items = [] then none else some (Json.ofList encode items)
      else none := by
  cases items with
  | nil => simp [ofItems]
  | cons item rest => simp [ofItems]

/-- An object keeps the last member of each name. -/
theorem lookup_stored (members : Members) (name : String) :
    (SortedMap.ofList members).toList.lookup name = members.last? name := by
  rw [SortedMap.lookup_toList, SortedMap.find?_ofList, last?]

/-- The members of an object have different names. -/
theorem last?_toList (map : SortedMap String Json) (name : String) :
    last? map.toList name = map.find? name := by
  rw [last?, ← SortedMap.find?_ofList, SortedMap.ofList_of_perm (List.Perm.refl _)]

/-- Leaving out members leaves the others what they are. -/
theorem find?_without (names : List String) (map : SortedMap String Json) (name : String) :
    (SortedMap.ofList (without names map.toList)).find? name =
      if name ∈ names then none else map.find? name := by
  have kept : ∀ {entry}, entry ∈ without names map.toList ↔
      entry ∈ map.toList ∧ entry.1 ∉ names := by
    simp [without]
  have distinct : ((without names map.toList).reverse.map Prod.fst).Nodup := by
    rw [List.map_reverse, List.nodup_reverse]
    exact (List.filter_sublist.map Prod.fst).nodup map.nodup_keys
  apply Option.ext
  intro value
  rw [SortedMap.find?_ofList, lookup_eq_some_iff_mem distinct, List.mem_reverse, kept,
    SortedMap.mem_toList_iff]
  by_cases named : name ∈ names
  · simp [named]
  · simp [named]

end Members

namespace Json

variable {κ α : Type} [OrderedKey κ]

/-- The members of the object of a map. -/
def named (name : κ → String) (encode : α → Json) (map : SortedMap κ α) : Members :=
  map.toList.map fun entry => (name entry.1, encode entry.2)

/-- The entry of a map that a member of an object denotes. -/
def keyed? (key? : String → Option κ) (decode : Json → Option α) (member : String × Json) :
    Option (κ × α) := do
  let key ← key? member.1
  let value ← decode member.2
  return (key, value)

/-- The members of a map are an object as they stand. -/
theorem object_toList (map : SortedMap String Json) : object map.toList = obj map.toList := by
  rw [object, SortedMap.ofList_of_perm (List.Perm.refl _)]

/-- The map that an object of members denotes. -/
theorem mapBy?_object (key? : String → Option κ) (decode : Json → Option α) (members : Members) :
    mapBy? key? decode (object members) =
      ((SortedMap.ofList members).toList.mapM (keyed? key? decode)).map SortedMap.ofList :=
  Option.map_eq_bind.symm

end Json

namespace Restores

open Json (keyed? mapBy?_object named)

variable {α : Type} {encode : α → Json} {decode : Json → Option α}

theorem text (value : String) : Restores .str Json.string? value :=
  ⟨rfl, Json.noConfusion⟩

theorem truth (value : Bool) : Restores .bool Json.bool? value :=
  ⟨rfl, Json.noConfusion⟩

theorem number {value : Float} (finite : value.isFinite = true) :
    Restores .ofFloat Json.float? value := by
  have encoded : Json.ofFloat value = .num (.float value) := if_pos finite
  constructor
  · rw [encoded]
    rfl
  · rw [encoded]
    exact Json.noConfusion

theorem count {bound value : Nat} (below : value < bound) :
    Restores .ofNat (Json.natBelow? bound) value :=
  ⟨if_pos below, Json.noConfusion⟩

/-- Names that differ tell the options apart. -/
theorem choice {options : List α} {name : α → String} {option : α}
    (distinct : (options.map name).Nodup) (listed : option ∈ options) :
    Restores (fun option => .str (name option)) (Json.choice? options name) option := by
  refine ⟨?_, Json.noConfusion⟩
  rw [Json.choice?, List.find?_eq_some_iff_append]
  rcases List.append_of_mem listed with ⟨before, after, split⟩
  refine ⟨decide_eq_true rfl, before, after, split, fun other earlier => ?_⟩
  rw [split, List.map_append, List.map_cons] at distinct
  have apart := (List.nodup_append.mp distinct).2.2 (name other) (List.mem_map_of_mem earlier)
    (name option) List.mem_cons_self
  simpa using apart

theorem list (items : List α) (each : ∀ item ∈ items, Restores encode decode item) :
    Restores (Json.ofList encode) (Json.list? decode) items := by
  refine ⟨?_, Json.noConfusion⟩
  show (items.map encode).mapM decode = some items
  induction items with
  | nil => rfl
  | cons item rest inductionHypothesis =>
    have others := inductionHypothesis fun other member => each other (List.mem_cons_of_mem _ member)
    rw [List.map_cons, List.mapM_cons, (each item List.mem_cons_self).decoded, others]
    rfl

/-- Decoding items that all fit keeps all of them. -/
theorem mapM_eq_filterMap {ι : Type} {read : ι → Option α} {items : List ι}
    (each : ∀ item ∈ items, (read item).isSome = true) :
    items.mapM read = some (items.filterMap read) := by
  induction items with
  | nil => rfl
  | cons item rest inductionHypothesis =>
    have others := inductionHypothesis fun other member => each other (List.mem_cons_of_mem _ member)
    rcases Option.isSome_iff_exists.mp (each item List.mem_cons_self) with ⟨value, decoded⟩
    rw [List.mapM_cons, decoded, others, List.filterMap_cons_some decoded]
    rfl

section Map

variable {κ : Type} [OrderedKey κ] {name : κ → String} {key? : String → Option κ}
  {map : SortedMap κ α}

/-- Keys that are read from their names have different names. -/
theorem nodup_names (keys : ∀ entry ∈ map.toList, key? (name entry.1) = some entry.1) :
    (map.toList.map fun entry => name entry.1).Nodup := by
  refine List.Nodup.map_on ?_ map.nodup_keys.of_map
  rintro ⟨key, first⟩ firstListed ⟨other, second⟩ secondListed same
  have read := keys _ firstListed
  rw [same, keys _ secondListed, Option.some.injEq] at read
  dsimp only at read
  subst read
  rw [SortedMap.mem_toList_iff] at firstListed secondListed
  rw [firstListed] at secondListed
  rw [Option.some.inj secondListed]

/-- A map is restored if its keys are read from their names.  Written as an
object its entries stand in the order of the names, but the map does not depend
on that. -/
theorem mapBy (keys : ∀ entry ∈ map.toList, key? (name entry.1) = some entry.1)
    (values : ∀ entry ∈ map.toList, Restores encode decode entry.2) :
    Restores (Json.ofMapBy name encode) (Json.mapBy? key? decode) map := by
  refine ⟨?_, Json.noConfusion⟩
  have reads : ∀ entry ∈ map.toList,
      keyed? key? decode (name entry.1, encode entry.2) = some entry := by
    intro entry member
    rw [keyed?, keys entry member, (values entry member).decoded]
    rfl
  have stored : (SortedMap.ofList (named name encode map)).toList.Perm (named name encode map) := by
    apply SortedMap.perm_toList_ofList
    rw [named, List.map_map]
    exact nodup_names keys
  have each : ∀ member ∈ (SortedMap.ofList (named name encode map)).toList,
      (keyed? key? decode member).isSome = true := by
    intro member listed
    rcases List.mem_map.mp (stored.mem_iff.mp listed) with ⟨entry, known, rfl⟩
    rw [reads entry known]
    rfl
  have whole : (named name encode map).filterMap (keyed? key? decode) = map.toList := by
    rw [named, List.filterMap_map]
    exact (List.filterMap_congr reads).trans List.filterMap_some
  have entries := (stored.filterMap (keyed? key? decode)).trans (List.Perm.of_eq whole)
  have written : Json.ofMapBy name encode map = .object (named name encode map) := rfl
  rw [written, mapBy?_object, mapM_eq_filterMap each, Option.map_some]
  exact congrArg some (SortedMap.ofList_of_perm entries)

end Map

/-- A map of names is a map whose keys are written as they are. -/
theorem map {map : SortedMap String α}
    (values : ∀ entry ∈ map.toList, Restores encode decode entry.2) :
    Restores (Json.ofMap encode) (Json.map? decode) map := by
  have keyed : Restores (Json.ofMapBy id encode) (Json.mapBy? some decode) map :=
    mapBy (fun _ _ => rfl) values
  have written : Json.ofMapBy id encode map = Json.ofMap encode map :=
    Json.object_toList (map.mapValues fun _ value => encode value)
  have reads : Json.mapBy? some decode (Json.ofMap encode map) =
      Json.map? decode (Json.ofMap encode map) := by
    have entry (member : String × Json) :
        keyed? some decode member = (decode member.2).map (member.1, ·) :=
      Option.map_eq_bind.symm
    exact congrArg (fun read => ((map.mapValues fun _ value => encode value).toList.mapM read).bind
      fun entries => some (SortedMap.ofList entries)) (funext entry)
  refine ⟨?_, Json.noConfusion⟩
  rw [← reads, ← written]
  exact keyed.decoded

/-- A record is restored if it is decoded from the object of its members. -/
theorem object {members : Members} {decode : Members → Option α} {value : α}
    (written : encode value = .object members)
    (reads : decode (SortedMap.ofList members).toList = some value) :
    Restores encode (Json.record? decode) value := by
  constructor
  · rw [written]
    exact reads
  · rw [written]
    exact Json.noConfusion

/-- A record is restored if it is decoded from any members that hold the same
under each name. -/
theorem record {members : Members} {decode : Members → Option α} {value : α}
    (written : encode value = .object members)
    (reads : ∀ stored : Members, (∀ name, stored.lookup name = members.last? name) →
      decode stored = some value) :
    Restores encode (Json.record? decode) value :=
  .object written (reads _ members.lookup_stored)

end Restores

namespace Members

variable {α : Type} {encode : α → Json} {decode : Json → Option α} (members : Members)
  (name : String)

theorem required_eq_some {value : α} (restores : Restores encode decode value)
    (found : members.lookup name = some (encode value)) :
    members.required name decode = some value := by
  rw [required, found, Option.bind_some, restores.decoded]

theorem defaulted_eq_some (default : α) {value : α} (restores : Restores encode decode value)
    (found : members.lookup name = some (encode value)) :
    members.defaulted name decode default = some value := by
  rw [defaulted, found]
  exact restores.decoded

theorem nullable_eq_some (value : Option α)
    (restores : ∀ kept ∈ value, Restores encode decode kept) (found : members.lookup name = value.map encode) :
    members.nullable name decode = some value := by
  cases value with
  | none =>
    rw [nullable, found]
    rfl
  | some kept =>
    have restored := restores kept rfl
    rw [nullable, found, Option.map_some]
    split
    · rename_i absent
      cases absent
    · rename_i null
      exact absurd (Option.some.inj null) restored.written
    · rename_i other _ same
      cases same
      rw [restored.decoded]
      rfl

/-- A list that is always written. -/
theorem listed_eq_some_of_written (items : List α)
    (each : ∀ item ∈ items, Restores encode decode item)
    (found : members.lookup name = some (Json.ofList encode items)) :
    members.listed name decode = some items :=
  members.defaulted_eq_some name [] (.list items each) found

/-- A list that is written only if it has items. -/
theorem listed_eq_some (items : List α) (each : ∀ item ∈ items, Restores encode decode item)
    (found : members.lookup name =
      if items = [] then none else some (Json.ofList encode items)) :
    members.listed name decode = some items := by
  cases items with
  | nil =>
    rw [listed, defaulted, found]
    rfl
  | cons item rest =>
    exact members.listed_eq_some_of_written name (item :: rest) each found

end Members
end CharacterSheet
