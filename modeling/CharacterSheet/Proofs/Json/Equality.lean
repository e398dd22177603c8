import CharacterSheet.Json.Equality
import CharacterSheet.Proofs.Numeric.Zero
import CharacterSheet.Proofs.SortedMap
import Mathlib.Data.List.Perm.Subperm

/-!
# Equality by meaning

Equality by meaning is an equivalence relation, and equal values can stand for
each other wherever they are parts of others.  Both rest on what values are
made of: an undefined number is not even equal to itself, and of two members of
one name only the first would be found.

Arrays and objects are compared alike.  They have to be of one size, and each
part of the first has to be equal to what is found at its place in the second
(`FindsEqual`).  Nothing is looked for in the other direction.  For arrays there
is no need to, because lists of one length have the same places.  For objects it
takes a count: as many distinct names as there are members of the second cannot
all be among its names and leave one out.
-/

namespace CharacterSheet
namespace Json

/-- Every number in a value is defined, and no object in it has two members of
one name. -/
inductive WellFormed : Json → Prop where
  | null : WellFormed null
  | bool (value : Bool) : WellFormed (bool value)
  | num {value : Number} (defined : value.toFloat.isNaN = false) : WellFormed (num value)
  | str (value : String) : WellFormed (str value)
  | arr {items : List Json} (each : ∀ item ∈ items, WellFormed item) : WellFormed (arr items)
  | obj {members : List (String × Json)} (distinct : (members.map Prod.fst).Nodup)
      (each : ∀ member ∈ members, WellFormed member.2) : WellFormed (obj members)

/-! ## The parts of equal values -/

/-- What is found at a place on the one side is equal to what is found there on
the other. -/
def FindsEqual {κ : Type} (find? findToo? : κ → Option Json) : Prop :=
  ∀ place part, find? place = some part →
    ∃ other, findToo? place = some other ∧ part.same other = true

namespace FindsEqual

variable {κ : Type} {first? second? third? : κ → Option Json}

theorem refl (each : ∀ place part, first? place = some part → part.same part = true) :
    FindsEqual first? first? :=
  fun place part found => ⟨part, found, each place part found⟩

/-- The direction can be turned around if the first side has all the places of
the second. -/
theorem symm (finds : FindsEqual first? second?)
    (places : ∀ place other, second? place = some other → ∃ part, first? place = some part)
    (each : ∀ place part other, first? place = some part → second? place = some other →
      part.same other = true → other.same part = true) :
    FindsEqual second? first? := by
  intro place other found
  rcases places place other found with ⟨part, foundFirst⟩
  rcases finds place part foundFirst with ⟨_, foundToo, same⟩
  cases found.symm.trans foundToo
  exact ⟨part, foundFirst, each place part other foundFirst found same⟩

theorem trans (finds : FindsEqual first? second?) (findsOn : FindsEqual second? third?)
    (each : ∀ place part other last, first? place = some part → second? place = some other →
      part.same other = true → other.same last = true → part.same last = true) :
    FindsEqual first? third? := by
  intro place part found
  rcases finds place part found with ⟨other, foundToo, same⟩
  rcases findsOn place other foundToo with ⟨last, foundLast, sameOn⟩
  exact ⟨last, foundLast, each place part other last found foundToo same sameOn⟩

end FindsEqual

/-- The item at a place of a list. -/
def itemAt? (items : List Json) (place : Nat) : Option Json :=
  items[place]?

/-- What members have under a name. -/
def memberNamed? (members : List (String × Json)) (name : String) : Option Json :=
  members.lookup name

theorem mem_of_itemAt? {items : List Json} {place : Nat} {item : Json}
    (found : itemAt? items place = some item) : item ∈ items :=
  List.mem_of_getElem? found

theorem mem_of_memberNamed? {members : List (String × Json)} {name : String} {value : Json}
    (found : memberNamed? members name = some value) : (name, value) ∈ members := by
  rcases List.lookup_eq_some_iff.mp found with ⟨before, after, split, -⟩
  rw [split]
  exact List.mem_append_right before List.mem_cons_self

theorem sameItems_iff {first second : List Json} :
    sameItems first second = true ↔
      first.length = second.length ∧ FindsEqual (itemAt? first) (itemAt? second) := by
  induction first generalizing second with
  | nil => cases second <;> simp [sameItems, FindsEqual, itemAt?]
  | cons item rest inductionHypothesis =>
    cases second with
    | nil => simp [sameItems]
    | cons other others =>
      rw [sameItems, Bool.and_eq_true, inductionHypothesis, List.length_cons, List.length_cons,
        Nat.add_right_cancel_iff, and_left_comm]
      refine and_congr_right fun _ => ⟨?_, fun finds => ⟨?_, fun place => finds (place + 1)⟩⟩
      · rintro ⟨same, finds⟩ (_ | place) part found
        · cases found
          exact ⟨other, rfl, same⟩
        · exact finds place part found
      · rcases finds 0 item rfl with ⟨_, ⟨⟩, same⟩
        exact same

theorem same_arr_iff {first second : List Json} :
    (arr first).same (arr second) = true ↔
      first.length = second.length ∧ FindsEqual (itemAt? first) (itemAt? second) := by
  rw [same, sameItems_iff]

theorem allFoundIn_iff {members others : List (String × Json)} :
    allFoundIn others members = true ↔
      ∀ member ∈ members, ∃ other, memberNamed? others member.1 = some other ∧
        member.2.same other = true := by
  induction members with
  | nil => simp [allFoundIn]
  | cons member rest inductionHypothesis =>
    rw [allFoundIn, Bool.and_eq_true, inductionHypothesis, List.forall_mem_cons, Option.any_eq_true]
    rfl

theorem same_obj_iff {first second : List (String × Json)}
    (distinct : (first.map Prod.fst).Nodup) :
    (obj first).same (obj second) = true ↔
      first.length = second.length ∧ FindsEqual (memberNamed? first) (memberNamed? second) := by
  rw [same, Bool.and_eq_true, beq_iff_eq, allFoundIn_iff]
  refine and_congr_right fun _ => ⟨fun all name value found => ?_, fun finds member listed => ?_⟩
  · exact all (name, value) (mem_of_memberNamed? found)
  · exact finds member.1 member.2 (lookup_eq_some_of_mem distinct listed)

theorem mem_names_iff {members : List (String × Json)} {name : String} :
    name ∈ members.map Prod.fst ↔ ∃ value, memberNamed? members name = some value := by
  rw [memberNamed?, ← Option.isSome_iff_exists, List.lookup_isSome_iff, List.mem_map]
  exact exists_congr fun member => and_congr_right fun _ => eq_comm.trans beq_iff_eq.symm

/-- If as many members of distinct names are all found among others, none of
the others' names is left out. -/
theorem FindsEqual.names {first second : List (String × Json)}
    (finds : FindsEqual (memberNamed? first) (memberNamed? second))
    (distinct : (first.map Prod.fst).Nodup) (size : first.length = second.length)
    (name : String) (other : Json) (found : memberNamed? second name = some other) :
    ∃ value, memberNamed? first name = some value := by
  have among : first.map Prod.fst ⊆ second.map Prod.fst := by
    intro name named
    rcases mem_names_iff.mp named with ⟨value, found⟩
    rcases finds name value found with ⟨other, foundToo, -⟩
    exact mem_names_iff.mpr ⟨other, foundToo⟩
  have asMany : (second.map Prod.fst).length ≤ (first.map Prod.fst).length := by
    rw [List.length_map, List.length_map, size]
  have permuted := (List.subperm_of_subset distinct among).perm_of_length_le asMany
  exact mem_names_iff.mp (permuted.mem_iff.mpr (mem_names_iff.mpr ⟨other, found⟩))

/-! ## An equivalence relation -/

namespace WellFormed

variable {first second third : Json}

theorem same_refl (wellFormed : first.WellFormed) : first.same first = true := by
  induction wellFormed with
  | null => rfl
  | bool | str => exact beq_self_eq_true _
  | num defined => exact Numeric.beq_self defined
  | arr _ inductionHypothesis =>
    refine same_arr_iff.mpr ⟨rfl, .refl fun place item found => ?_⟩
    exact inductionHypothesis item (mem_of_itemAt? found)
  | obj distinct _ inductionHypothesis =>
    refine (same_obj_iff distinct).mpr ⟨rfl, .refl fun name value found => ?_⟩
    exact inductionHypothesis (name, value) (mem_of_memberNamed? found)

theorem same_symm (wellFormed : first.WellFormed) (wellFormedToo : second.WellFormed)
    (same : first.same second = true) : second.same first = true := by
  -- Values of different kinds are not equal.
  induction wellFormed generalizing second with
  | null => cases wellFormedToo <;> first | rfl | cases same
  | bool =>
    cases wellFormedToo with
    | bool => exact BEq.symm same
    | _ => cases same
  | str =>
    cases wellFormedToo with
    | str => exact BEq.symm same
    | _ => cases same
  | num defined =>
    cases wellFormedToo with
    | num definedToo =>
      exact (Numeric.beq_iff_rank definedToo defined).mpr
        ((Numeric.beq_iff_rank defined definedToo).mp same).symm
    | _ => cases same
  | arr _ inductionHypothesis =>
    cases wellFormedToo with
    | arr eachToo =>
      rcases same_arr_iff.mp same with ⟨size, finds⟩
      refine same_arr_iff.mpr ⟨size.symm, finds.symm ?_ ?_⟩
      · intro place other found
        have within : place < _ := (List.getElem?_eq_some_iff.mp found).1
        exact ⟨_, List.getElem?_eq_getElem (size ▸ within)⟩
      · intro place item other found foundToo
        exact inductionHypothesis item (mem_of_itemAt? found)
          (eachToo other (mem_of_itemAt? foundToo))
    | _ => cases same
  | obj distinct _ inductionHypothesis =>
    cases wellFormedToo with
    | obj distinctToo eachToo =>
      rcases (same_obj_iff distinct).mp same with ⟨size, finds⟩
      refine (same_obj_iff distinctToo).mpr ⟨size.symm, finds.symm (finds.names distinct size) ?_⟩
      intro name value other found foundToo
      exact inductionHypothesis (name, value) (mem_of_memberNamed? found)
        (eachToo (name, other) (mem_of_memberNamed? foundToo))
    | _ => cases same

theorem same_trans (wellFormed : first.WellFormed) (wellFormedToo : second.WellFormed)
    (same : first.same second = true) (sameOn : second.same third = true) :
    first.same third = true := by
  induction wellFormed generalizing second third with
  | null =>
    cases wellFormedToo with
    | null => exact sameOn
    | _ => cases same
  | bool =>
    cases wellFormedToo with
    | bool => exact beq_iff_eq.mp same ▸ sameOn
    | _ => cases same
  | str =>
    cases wellFormedToo with
    | str => exact beq_iff_eq.mp same ▸ sameOn
    | _ => cases same
  | num =>
    cases wellFormedToo with
    | num =>
      cases third with
      | num =>
        have lastEqual := Numeric.beq_self (Numeric.isNaN_of_beq sameOn).2
        exact (Numeric.beq_congr same lastEqual).trans sameOn
      | _ => cases sameOn
    | _ => cases same
  | arr _ inductionHypothesis =>
    cases wellFormedToo with
    | arr eachToo =>
      cases third with
      | arr =>
        rcases same_arr_iff.mp same with ⟨size, finds⟩
        rcases same_arr_iff.mp sameOn with ⟨sizeOn, findsOn⟩
        refine same_arr_iff.mpr ⟨size.trans sizeOn, finds.trans findsOn ?_⟩
        intro place item other last found foundToo
        exact inductionHypothesis item (mem_of_itemAt? found)
          (eachToo other (mem_of_itemAt? foundToo))
      | _ => cases sameOn
    | _ => cases same
  | obj distinct _ inductionHypothesis =>
    cases wellFormedToo with
    | obj distinctToo eachToo =>
      cases third with
      | obj =>
        rcases (same_obj_iff distinct).mp same with ⟨size, finds⟩
        rcases (same_obj_iff distinctToo).mp sameOn with ⟨sizeOn, findsOn⟩
        refine (same_obj_iff distinct).mpr ⟨size.trans sizeOn, finds.trans findsOn ?_⟩
        intro name value other last found foundToo
        exact inductionHypothesis (name, value) (mem_of_memberNamed? found)
          (eachToo (name, other) (mem_of_memberNamed? foundToo))
      | _ => cases sameOn
    | _ => cases same

end WellFormed

/-! ## Equal values in place of each other -/

/-- One value has the old value as a part, at any depth, where the other has the
new one, and otherwise they are alike. -/
inductive Replaces (old new : Json) : Json → Json → Prop where
  | here : Replaces old new old new
  | item {inner revised : Json} (before after : List Json)
      (within : Replaces old new inner revised) :
      Replaces old new (arr (before ++ inner :: after)) (arr (before ++ revised :: after))
  | member {inner revised : Json} (before after : List (String × Json)) (name : String)
      (within : Replaces old new inner revised) :
      Replaces old new (obj (before ++ (name, inner) :: after))
        (obj (before ++ (name, revised) :: after))

/-- Lists are equal item by item if one item of the first is replaced by an
equal one. -/
theorem sameItems_revised {before after : List Json} {inner revised : Json}
    (each : ∀ item ∈ before ++ inner :: after, item.WellFormed)
    (same : inner.same revised = true) :
    sameItems (before ++ inner :: after) (before ++ revised :: after) = true := by
  induction before with
  | nil =>
    have unrevised : sameItems after after = true :=
      (WellFormed.arr (List.forall_mem_cons.mp each).2).same_refl
    rw [List.nil_append, List.nil_append, sameItems, same, unrevised, Bool.true_and]
  | cons item before inductionHypothesis =>
    rcases List.forall_mem_cons.mp each with ⟨wellFormed, others⟩
    rw [List.cons_append, List.cons_append, sameItems, wellFormed.same_refl,
      inductionHypothesis others, Bool.true_and]

theorem names_revised {before after : List (String × Json)} {name : String}
    (inner revised : Json) :
    (before ++ (name, inner) :: after).map Prod.fst =
      (before ++ (name, revised) :: after).map Prod.fst := by
  rw [List.map_append, List.map_append, List.map_cons, List.map_cons]

/-- All members of an object are found in it if one is replaced by an equal
one. -/
theorem allFoundIn_revised {before after : List (String × Json)} {name : String}
    {inner revised : Json}
    (distinct : ((before ++ (name, inner) :: after).map Prod.fst).Nodup)
    (each : ∀ member ∈ before ++ (name, inner) :: after, member.2.WellFormed)
    (same : inner.same revised = true) :
    allFoundIn (before ++ (name, revised) :: after) (before ++ (name, inner) :: after) = true := by
  rw [names_revised inner revised] at distinct
  refine allFoundIn_iff.mpr fun member listed => ?_
  have self := (each member listed).same_refl
  rcases List.mem_append.mp listed with early | late
  · exact ⟨member.2, lookup_eq_some_of_mem distinct (List.mem_append_left _ early), self⟩
  · cases late with
    | head =>
      have placed : (name, revised) ∈ before ++ (name, revised) :: after :=
        List.mem_append_right before List.mem_cons_self
      exact ⟨revised, lookup_eq_some_of_mem distinct placed, same⟩
    | tail _ later =>
      have placed : member ∈ before ++ (name, revised) :: after :=
        List.mem_append_right before (List.mem_cons_of_mem _ later)
      exact ⟨member.2, lookup_eq_some_of_mem distinct placed, self⟩

namespace Replaces

variable {old new whole revised : Json}

theorem wellFormed (replaces : Replaces old new whole revised) (wellFormed : whole.WellFormed)
    (newWellFormed : new.WellFormed) : revised.WellFormed := by
  induction replaces with
  | here => exact newWellFormed
  | item before after _ inductionHypothesis =>
    cases wellFormed with
    | arr each =>
      simp only [List.forall_mem_append, List.forall_mem_cons] at each
      refine .arr ?_
      simp only [List.forall_mem_append, List.forall_mem_cons]
      exact ⟨each.1, inductionHypothesis each.2.1, each.2.2⟩
  | member before after name _ inductionHypothesis =>
    cases wellFormed with
    | obj distinct each =>
      simp only [List.forall_mem_append, List.forall_mem_cons] at each
      refine .obj (names_revised _ _ ▸ distinct) ?_
      simp only [List.forall_mem_append, List.forall_mem_cons]
      exact ⟨each.1, inductionHypothesis each.2.1, each.2.2⟩

/-- An equal value in place of a part leaves the whole equal to what it was. -/
theorem same_revised (replaces : Replaces old new whole revised) (wellFormed : whole.WellFormed)
    (same : old.same new = true) : whole.same revised = true := by
  induction replaces with
  | here => exact same
  | item before after _ inductionHypothesis =>
    cases wellFormed with
    | arr each =>
      have inner := each _ (List.mem_append_right before List.mem_cons_self)
      exact sameItems_revised each (inductionHypothesis inner)
  | member before after name _ inductionHypothesis =>
    cases wellFormed with
    | obj distinct each =>
      have inner := each _ (List.mem_append_right before List.mem_cons_self)
      rw [Json.same, allFoundIn_revised distinct each (inductionHypothesis inner)]
      simp only [List.length_append, List.length_cons, beq_self_eq_true, Bool.and_self]

end Replaces

/-- Equality by meaning is an equivalence relation on well-formed values.  If a
part of a value, at any depth, is replaced by an equal one, the value stays well
formed and equal to what it was, and so it does to everything else. -/
theorem same_equivalence :
    Equivalence (fun first second : { value : Json // value.WellFormed } =>
        first.val.same second.val = true) ∧
      ∀ {old new whole revised : Json}, Replaces old new whole revised →
        whole.WellFormed → new.WellFormed → old.same new = true →
          revised.WellFormed ∧ whole.same revised = true ∧
            ∀ other : Json, other.WellFormed →
              whole.same other = revised.same other ∧ other.same whole = other.same revised := by
  refine ⟨⟨?_, ?_, ?_⟩, ?_⟩
  · exact fun first => first.property.same_refl
  · exact fun {first second} => first.property.same_symm second.property
  · exact fun {first second _} => first.property.same_trans second.property
  · intro old new whole revised replaces wellFormed newWellFormed same
    have revisedWellFormed := replaces.wellFormed wellFormed newWellFormed
    have forth := replaces.same_revised wellFormed same
    have back := wellFormed.same_symm revisedWellFormed forth
    refine ⟨revisedWellFormed, forth, fun other otherWellFormed => ⟨?_, ?_⟩⟩
    · rw [Bool.eq_iff_iff]
      exact ⟨revisedWellFormed.same_trans wellFormed back,
        wellFormed.same_trans revisedWellFormed forth⟩
    · rw [Bool.eq_iff_iff]
      exact ⟨fun equal => otherWellFormed.same_trans wellFormed equal forth,
        fun equal => otherWellFormed.same_trans revisedWellFormed equal back⟩

/-- The level of a spell may be given as an integer or as a double, also deep
within other data. -/
theorem same_equivalence_level :
    let spell (level : Number) : Json :=
      .obj [("id", .str "fireball"), ("variants", .arr [.null, .obj [("level", .num level)]])]
    (Replaces (.num (.int 3)) (.num (.float 3)) (spell (.int 3)) (spell (.float 3)) ∧
        (spell (.int 3)).WellFormed ∧ (num (.float 3)).WellFormed ∧
          (num (.int 3)).same (.num (.float 3)) = true) ∧
      (spell (.int 3)).same (spell (.float 3)) = true := by
  intro spell
  have replaces : Replaces (.num (.int 3)) (.num (.float 3)) (spell (.int 3)) (spell (.float 3)) :=
    .member [_] [] "variants" (.item [_] [] (.member [] [] "level" .here))
  have integer : (num (.int 3)).WellFormed := .num rfl
  have double : (num (.float 3)).WellFormed := .num rfl
  have variant : (obj [("level", .num (.int 3))]).WellFormed :=
    .obj (by decide) (List.forall_mem_singleton.mpr integer)
  have variants : (arr [.null, .obj [("level", .num (.int 3))]]).WellFormed :=
    .arr (List.forall_mem_cons.mpr ⟨.null, List.forall_mem_singleton.mpr variant⟩)
  have wellFormed : (spell (.int 3)).WellFormed :=
    .obj (by decide) (List.forall_mem_cons.mpr ⟨.str _, List.forall_mem_singleton.mpr variants⟩)
  have same : (num (.int 3)).same (.num (.float 3)) = true := rfl
  exact ⟨⟨replaces, wellFormed, double, same⟩,
    (same_equivalence.2 replaces wellFormed double same).2.1⟩

end Json
end CharacterSheet
