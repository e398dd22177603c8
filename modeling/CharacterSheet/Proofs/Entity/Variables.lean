import CharacterSheet.Entity.Variables
import CharacterSheet.Proofs.Query.DottedPath
import CharacterSheet.Proofs.SortedMap

/-!
# The variables of an entity and where they stand

A value becomes variables by going through its objects.  The key of each
variable is the key of the value and behind it, with a dot before each, the
names that lead to what the variable stands for.  If no name contains a dot,
the names can be read off the key again, so no two variables share a key, and
what is found under a key is told by the way that it spells.

`mem_variablesWithin_iff` says what is listed on the way through a value, and
`eq_of_pathKey_eq` that a key spells one way only.
-/

namespace CharacterSheet

namespace Json

/-- What some names lead to, one after the other, through nested objects. -/
def inner? (value : Json) (path : List String) : Option Json :=
  path.foldlM (fun found name => found.member? name) value

/-- No name of an object that can be reached through objects contains a dot,
and none occurs twice in its object. -/
inductive PlainlyNamed : Json → Prop where
  | obj {members : List (String × Json)} (distinct : (members.map Prod.fst).Nodup)
      (plain : ∀ member ∈ members, '.' ∉ member.1.toList)
      (each : ∀ member ∈ members, PlainlyNamed member.2) : PlainlyNamed (.obj members)
  | other {value : Json} (noObject : ∀ members, value ≠ .obj members) : PlainlyNamed value

theorem inner?_cons (value : Json) (name : String) (path : List String) :
    value.inner? (name :: path) = (value.member? name).bind (·.inner? path) := rfl

theorem inner?_append (value : Json) (path more : List String) :
    value.inner? (path ++ more) = (value.inner? path).bind (·.inner? more) := by
  rw [inner?, List.foldlM_append]
  rfl

namespace PlainlyNamed

variable {name : String} {inner : Json}

/-- What a name leads to is plainly named, and the name is plain. -/
theorem of_member? {value : Json} (plainly : value.PlainlyNamed)
    (leads : value.member? name = some inner) : '.' ∉ name.toList ∧ inner.PlainlyNamed := by
  cases plainly with
  | obj distinct plain each =>
    have member := (lookup_eq_some_iff_mem distinct).mp leads
    exact ⟨plain _ member, each _ member⟩
  | other noObject =>
    cases value with
    | obj members => exact absurd rfl (noObject members)
    | _ => cases leads

theorem plain_of_inner? {value : Json} (plainly : value.PlainlyNamed) {path : List String}
    (leads : value.inner? path = some inner) : ∀ name ∈ path, '.' ∉ name.toList := by
  induction path generalizing value with
  | nil => exact List.forall_mem_nil _
  | cons name path inductionHypothesis =>
    rw [inner?_cons] at leads
    rcases Option.bind_eq_some_iff.mp leads with ⟨next, first, others⟩
    rcases plainly.of_member? first with ⟨plain, nextPlainly⟩
    exact List.forall_mem_cons.mpr ⟨plain, inductionHypothesis nextPlainly others⟩

end PlainlyNamed
end Json

namespace Entity

/-! ## Keys of paths -/

/-- The key of a value with the names of a path behind it, a dot before each. -/
def pathKey (key : String) (path : List String) : String :=
  path.foldl (fun key name => key ++ "." ++ name) key

theorem pathKey_cons (key name : String) (path : List String) :
    pathKey key (name :: path) = pathKey (key ++ "." ++ name) path := rfl

theorem toList_pathKey (key : String) (path : List String) :
    (pathKey key path).toList = key.toList ++ path.flatMap fun name => '.' :: name.toList := by
  induction path generalizing key with
  | nil => rw [List.flatMap_nil, List.append_nil, pathKey, List.foldl_nil]
  | cons name path inductionHypothesis =>
    rw [pathKey_cons, inductionHypothesis, List.flatMap_cons]
    simp

/-- Taking the names apart at the dots gives them back. -/
theorem splitAtEach_flatMap {part : List Char} (plainPart : '.' ∉ part) {path : List String}
    (plain : ∀ name ∈ path, '.' ∉ name.toList) :
    Text.splitAtEach '.' (part ++ path.flatMap fun name => '.' :: name.toList) =
      part :: path.map String.toList := by
  induction path generalizing part with
  | nil =>
    rw [List.flatMap_nil, List.append_nil, Text.splitAtEach_of_not_mem plainPart]
    rfl
  | cons name path inductionHypothesis =>
    have others := inductionHypothesis (plain name List.mem_cons_self)
      fun other member => plain other (List.mem_cons_of_mem _ member)
    rw [List.flatMap_cons, List.cons_append, Text.splitAtEach_append plainPart, others]
    rfl

/-- Names without dots can be read off the key of their path. -/
theorem eq_of_pathKey_eq {key : String} {path other : List String}
    (plain : ∀ name ∈ path, '.' ∉ name.toList) (plainOther : ∀ name ∈ other, '.' ∉ name.toList)
    (same : pathKey key path = pathKey key other) : path = other := by
  have characters := congrArg String.toList same
  rw [toList_pathKey, toList_pathKey] at characters
  have parts := congrArg (Text.splitAtEach '.' <| [] ++ ·) (List.append_cancel_left characters)
  have noPart : '.' ∉ ([] : List Char) := List.not_mem_nil
  rw [splitAtEach_flatMap noPart plain, splitAtEach_flatMap noPart plainOther] at parts
  exact List.map_injective_iff.mpr (fun _ _ => String.toList_inj.mp) (List.cons.inj parts).2

/-! ## Variables of a value -/

/-- The variable that a number or a truth value becomes. -/
def leafVariable? : Json → Option Float
  | .num number => some number.toFloat
  | .bool truth => some (if truth then 1 else 0)
  | _ => none

/-- The variable that a path through nested objects leads to, if at most so
many objects are entered.  Behind the path to an array, the name `length`
leads to the number of its items. -/
inductive VariableAt (depth : Nat) (value : Json) : List String → Float → Prop where
  | leaf {path : List String} {leaf : Json} {number : Float} (near : path.length ≤ depth)
      (leads : value.inner? path = some leaf) (becomes : leafVariable? leaf = some number) :
      VariableAt depth value path number
  | count {path : List String} {items : List Json} (near : path.length ≤ depth)
      (leads : value.inner? path = some (.arr items)) :
      VariableAt depth value (path ++ ["length"]) (Float.ofNat items.length)

variable {depth : Nat} {key : String} {value inner : Json} {members : List (String × Json)}
  {path : List String} {name : String} {number : Float}

namespace VariableAt

/-- A path into an object begins with the name of a member. -/
theorem obj_iff :
    VariableAt depth (.obj members) path number ↔
      ∃ smaller name inner rest, depth = smaller + 1 ∧ path = name :: rest ∧
        members.lookup name = some inner ∧ VariableAt smaller inner rest number := by
  constructor
  · intro stands
    -- The way to anything but the object itself begins with a step to a member.
    have first {way : List String} {found : Json} (noObject : found ≠ .obj members)
        (near : way.length ≤ depth) (leads : (Json.obj members).inner? way = some found) :
        ∃ smaller name inner rest, depth = smaller + 1 ∧ way = name :: rest ∧
          members.lookup name = some inner ∧ rest.length ≤ smaller ∧
          inner.inner? rest = some found := by
      cases way with
      | nil => exact absurd (Option.some.inj leads).symm noObject
      | cons name rest =>
        rw [Json.inner?_cons] at leads
        rcases Option.bind_eq_some_iff.mp leads with ⟨inner, here, later⟩
        rw [List.length_cons] at near
        obtain ⟨smaller, rfl⟩ := Nat.exists_eq_add_of_le' (Nat.le_of_add_left_le near)
        exact ⟨smaller, name, inner, rest, rfl, rfl, here, Nat.le_of_succ_le_succ near, later⟩
    cases stands with
    | leaf near leads becomes =>
      rcases first (by rintro rfl; cases becomes) near leads with
        ⟨smaller, name, inner, rest, rfl, rfl, here, near, later⟩
      exact ⟨smaller, name, inner, rest, rfl, rfl, here, .leaf near later becomes⟩
    | count near leads =>
      rcases first Json.noConfusion near leads with
        ⟨smaller, name, inner, rest, rfl, rfl, here, near, later⟩
      exact ⟨smaller, name, inner, _, rfl, rfl, here, .count near later⟩
  · rintro ⟨smaller, name, inner, rest, rfl, rfl, here, stands⟩
    have behind {way : List String} {found : Json} (leads : inner.inner? way = some found) :
        (Json.obj members).inner? (name :: way) = some found := by
      rw [Json.inner?_cons, Json.member?, here]
      exact leads
    cases stands with
    | leaf near leads becomes => exact .leaf (Nat.succ_le_succ near) (behind leads) becomes
    | count near leads =>
      rw [← List.cons_append]
      exact .count (Nat.succ_le_succ near) (behind leads)

/-- What is no object has at most one variable: it is one itself, or it is an
array and has a length. -/
theorem other_iff (noObject : ∀ members, value ≠ .obj members) :
    VariableAt depth value path number ↔
      (path = [] ∧ leafVariable? value = some number) ∨
        path = ["length"] ∧ ∃ items, value = .arr items ∧ Float.ofNat items.length = number := by
  constructor
  · intro stands
    have nowhere {way : List String} {found : Json} (leads : value.inner? way = some found) :
        way = [] ∧ value = found := by
      cases way with
      | nil => exact ⟨rfl, Option.some.inj leads⟩
      | cons name rest =>
        cases value with
        | obj members => exact absurd rfl (noObject members)
        | _ => cases leads
    cases stands with
    | leaf _ leads becomes =>
      obtain ⟨rfl, rfl⟩ := nowhere leads
      exact Or.inl ⟨rfl, becomes⟩
    | count _ leads =>
      obtain ⟨rfl, rfl⟩ := nowhere leads
      exact Or.inr ⟨rfl, _, rfl, rfl⟩
  · rintro (⟨rfl, becomes⟩ | ⟨rfl, items, rfl, rfl⟩)
    · exact .leaf (Nat.zero_le _) rfl becomes
    · change VariableAt depth (.arr items) ([] ++ ["length"]) _
      exact .count (Nat.zero_le _) rfl

/-- The names that lead to a variable are plain, `length` included. -/
theorem plain (plainly : value.PlainlyNamed) (stands : VariableAt depth value path number) :
    ∀ name ∈ path, '.' ∉ name.toList := by
  cases stands with
  | leaf _ leads _ => exact plainly.plain_of_inner? leads
  | count _ leads =>
    intro name member
    rcases List.mem_append.mp member with inside | last
    · exact plainly.plain_of_inner? leads name inside
    · rw [List.mem_singleton.mp last]
      decide

/-- Nothing is found within an array, so its length shares its path with
nothing else. -/
theorem unique {other : Float} (stands : VariableAt depth value path number)
    (standsToo : VariableAt depth value path other) : other = number := by
  have noMember {front : List String} {items : List Json} (name : String)
      (leads : value.inner? front = some (.arr items)) : value.inner? (front ++ [name]) = none := by
    rw [Json.inner?_append, leads]
    rfl
  generalize same : path = way at standsToo
  cases stands with
  | leaf _ leads becomes =>
    cases standsToo with
    | leaf _ leadsToo becomesToo =>
      subst same
      rw [leads] at leadsToo
      cases leadsToo
      exact Option.some.inj (becomesToo.symm.trans becomes)
    | count _ leadsToo =>
      rw [same, noMember _ leadsToo] at leads
      cases leads
  | count _ leads =>
    cases standsToo with
    | leaf _ leadsToo _ =>
      rw [← same, noMember _ leads] at leadsToo
      cases leadsToo
    | count _ leadsToo =>
      rw [List.append_cancel_right same, leadsToo] at leads
      cases leads
      rfl

end VariableAt

/-! ## What is listed -/

theorem variablesOfMembers_eq_flatMap :
    variablesOfMembers key depth members =
      members.flatMap fun member => variablesWithin (key ++ "." ++ member.1) depth member.2 := by
  induction members with
  | nil => rfl
  | cons member rest inductionHypothesis =>
    rw [variablesOfMembers, inductionHypothesis, List.flatMap_cons]

theorem mem_variablesWithin_other_iff (noObject : ∀ members, value ≠ .obj members)
    {listed : String} :
    (listed, number) ∈ variablesWithin key depth value ↔
      ∃ path, listed = pathKey key path ∧ VariableAt depth value path number := by
  have lengthKey : key ++ ".length" = pathKey key ["length"] := by
    apply String.toList_inj.mp
    rw [toList_pathKey, String.toList_append]
    rfl
  have here : (listed, number) ∈ variablesWithin key depth value ↔
      (listed = key ∧ leafVariable? value = some number) ∨
        listed = pathKey key ["length"] ∧
          ∃ items, value = .arr items ∧ Float.ofNat items.length = number := by
    cases value with
    | obj members => exact absurd rfl (noObject members)
    | _ => simp [variablesWithin, leafVariable?, lengthKey, eq_comm]
  rw [here]
  constructor
  · rintro (⟨rfl, becomes⟩ | ⟨rfl, isArray⟩)
    · exact ⟨[], rfl, (VariableAt.other_iff noObject).mpr (Or.inl ⟨rfl, becomes⟩)⟩
    · exact ⟨_, rfl, (VariableAt.other_iff noObject).mpr (Or.inr ⟨rfl, isArray⟩)⟩
  · rintro ⟨path, rfl, stands⟩
    rcases (VariableAt.other_iff noObject).mp stands with ⟨rfl, becomes⟩ | ⟨rfl, isArray⟩
    · exact Or.inl ⟨rfl, becomes⟩
    · exact Or.inr ⟨rfl, isArray⟩

/-- What is listed of a value are the variables that stand in it, under the
keys of their paths. -/
theorem mem_variablesWithin_iff (plainly : value.PlainlyNamed) {listed : String} :
    (listed, number) ∈ variablesWithin key depth value ↔
      ∃ path, listed = pathKey key path ∧ VariableAt depth value path number := by
  induction depth generalizing key value with
  | zero =>
    cases plainly with
    | obj distinct plain each => simp [variablesWithin, VariableAt.obj_iff]
    | other noObject => exact mem_variablesWithin_other_iff noObject
  | succ depth inductionHypothesis =>
    cases plainly with
    | other noObject => exact mem_variablesWithin_other_iff noObject
    | obj distinct plain each =>
      rw [variablesWithin, variablesOfMembers_eq_flatMap, List.mem_flatMap]
      constructor
      · rintro ⟨⟨name, inner⟩, member, inside⟩
        rcases (inductionHypothesis (each _ member)).mp inside with ⟨path, rfl, stands⟩
        have leads := (lookup_eq_some_iff_mem distinct).mpr member
        refine ⟨name :: path, rfl, VariableAt.obj_iff.mpr ?_⟩
        exact ⟨depth, name, inner, path, rfl, rfl, leads, stands⟩
      · rintro ⟨path, rfl, stands⟩
        rcases VariableAt.obj_iff.mp stands with ⟨_, name, inner, rest, ⟨⟩, rfl, leads, stands⟩
        have member := (lookup_eq_some_iff_mem distinct).mp leads
        exact ⟨_, member, (inductionHypothesis (each _ member)).mpr ⟨rest, rfl, stands⟩⟩

theorem find?_variableValues_iff (plainly : value.PlainlyNamed) {listed : String} :
    (variableValues value key).find? listed = some number ↔
      ∃ path, listed = pathKey key path ∧ VariableAt maxVariableDepth value path number := by
  rw [← mem_variablesWithin_iff plainly]
  refine ⟨SortedMap.mem_of_find?_ofList, fun member => ?_⟩
  refine SortedMap.find?_ofList_of_agree member fun other memberToo => ?_
  rcases (mem_variablesWithin_iff plainly).mp member with ⟨path, rfl, stands⟩
  rcases (mem_variablesWithin_iff plainly).mp memberToo with ⟨way, same, standsToo⟩
  obtain rfl := eq_of_pathKey_eq (stands.plain plainly) (standsToo.plain plainly) same
  exact stands.unique standsToo

/-- The variables of an object without dots in its names: along a path of plain
names a variable is found if and only if the path leads through at most ten
objects to a number or a truth value, or is the path to an array followed by
`length`.  There are no others. -/
theorem variableValues_exact (key : String) (plainly : (Json.obj members).PlainlyNamed) :
    (∀ path, path ≠ [] → (∀ name ∈ path, '.' ∉ name.toList) → ∀ number,
      (variableValues (.obj members) key).find? (pathKey key path) = some number ↔
        (path.length ≤ 10 ∧ ∃ leaf, (Json.obj members).inner? path = some leaf ∧
          leafVariable? leaf = some number) ∨
        ∃ front items, path = front ++ ["length"] ∧ path.length ≤ 11 ∧ 1 < path.length ∧
          (Json.obj members).inner? front = some (.arr items) ∧
          number = Float.ofNat items.length) ∧
      ∀ entry ∈ (variableValues (.obj members) key).toList,
        ∃ path, path ≠ [] ∧ (∀ name ∈ path, '.' ∉ name.toList) ∧ entry.1 = pathKey key path := by
  constructor
  · intro path _ plain number
    rw [find?_variableValues_iff plainly]
    constructor
    · rintro ⟨way, same, stands⟩
      obtain rfl := eq_of_pathKey_eq plain (stands.plain plainly) same
      cases stands with
      | leaf near leads becomes => exact Or.inl ⟨near, _, leads, becomes⟩
      | @count front items near leads =>
        have below : front ≠ [] := by
          rintro rfl
          cases leads
        have long : 0 < front.length := List.length_pos_of_ne_nil below
        refine Or.inr ⟨front, items, rfl, ?_, ?_, leads, rfl⟩
        · rw [List.length_append]
          exact Nat.succ_le_succ near
        · rw [List.length_append]
          exact Nat.succ_lt_succ long
    · rintro (⟨near, leaf, leads, becomes⟩ | ⟨front, items, rfl, near, -, leads, rfl⟩)
      · exact ⟨path, rfl, .leaf near leads becomes⟩
      · rw [List.length_append] at near
        exact ⟨_, rfl, .count (Nat.le_of_succ_le_succ near) leads⟩
  · rintro ⟨listed, number⟩ member
    rcases (find?_variableValues_iff plainly).mp (SortedMap.mem_toList_iff.mp member) with
      ⟨path, same, stands⟩
    refine ⟨path, ?_, stands.plain plainly, same⟩
    rintro rfl
    rcases VariableAt.obj_iff.mp stands with ⟨_, _, _, _, _, ⟨⟩, _⟩

/-- A member named `length` keeps its own value, in an object without a name
too; the length of an array stands behind its path. -/
theorem variableValues_exact_length :
    (Json.obj [("", .obj [("length", .bool true)]), ("length", .arr [.null])]).PlainlyNamed ∧
      ["", "length"] ≠ [] ∧ (∀ name ∈ ["", "length"], '.' ∉ name.toList) ∧
      (variableValues (.obj [("", .obj [("length", .bool true)]), ("length", .arr [.null])])
        "entity").find? (pathKey "entity" ["", "length"]) = some 1 ∧
      (variableValues (.obj [("", .obj [("length", .bool true)]), ("length", .arr [.null])])
        "entity").find? (pathKey "entity" ["length", "length"]) = some (Float.ofNat 1) := by
  have plainly :
      (Json.obj [("", .obj [("length", .bool true)]), ("length", .arr [.null])]).PlainlyNamed := by
    refine .obj (by decide) (by decide) (List.forall_mem_cons.mpr ⟨?_, ?_⟩)
    · refine .obj (by decide) (by decide) (List.forall_mem_singleton.mpr ?_)
      exact .other fun _ => Json.noConfusion
    · exact List.forall_mem_singleton.mpr (.other fun _ => Json.noConfusion)
  refine ⟨plainly, by decide, by decide, ?_, ?_⟩
  · refine ((variableValues_exact "entity" plainly).1 _ (by decide) (by decide) 1).mpr ?_
    exact Or.inl ⟨by decide, .bool true, rfl, rfl⟩
  · refine ((variableValues_exact "entity" plainly).1 _ (by decide) (by decide) _).mpr ?_
    exact Or.inr ⟨["length"], [.null], rfl, by decide, by decide, rfl, rfl⟩

end Entity
end CharacterSheet
