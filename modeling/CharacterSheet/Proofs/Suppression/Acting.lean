import CharacterSheet.Proofs.SortedMap
import CharacterSheet.Suppression.Calculation

/-!
# Acting one after the other

`outcomeAfter` is the outcome when the first entities of a list have acted.  A
target that is suppressed stays so, with the record of the entity that came
first.  An entity whose turn comes adds exactly those of its targets that are
not suppressed yet, and nothing if it is suppressed itself.
-/

namespace CharacterSheet
namespace Suppression

variable (entities : List Entity) (index : Index) (scope : Scope)

/-- The outcome when some entities have acted. -/
def outcomeAfter (acted : List Entity) : Outcome :=
  acted.foldl (act entities index scope) SortedMap.empty

/-- The entities that another one would suppress, by id. -/
def targets (entity : Entity) : List String :=
  (claims entities index scope entity).map Prod.fst

theorem calculate_eq_outcomeAfter :
    calculate entities index scope = outcomeAfter entities index scope entities :=
  rfl

theorem outcomeAfter_snoc (acted : List Entity) (actor : Entity) :
    outcomeAfter entities index scope (acted ++ [actor]) =
      act entities index scope (outcomeAfter entities index scope acted) actor := by
  rw [outcomeAfter, List.foldl_append]
  rfl

/-- A claim counts unless its target is suppressed already. -/
theorem find?_claim (outcome : Outcome) (entry : String × Record) (target : String) :
    (claim outcome entry).find? target =
      (outcome.find? target).or (if target = entry.1 then some entry.2 else none) := by
  unfold claim SortedMap.contains
  cases known : outcome.find? entry.1 with
  | none =>
    rw [Option.isSome_none, if_neg Bool.false_ne_true]
    by_cases same : target = entry.1
    · rw [same, SortedMap.find?_insert_self, known, if_pos rfl, Option.none_or]
    · rw [SortedMap.find?_insert_of_ne _ _ same, if_neg same, Option.or_none]
  | some record =>
    rw [Option.isSome_some, if_pos rfl]
    by_cases same : target = entry.1
    · rw [same, known, Option.some_or]
    · rw [if_neg same, Option.or_none]

/-- Of several claims on one target the first counts. -/
theorem find?_foldl_claim (outcome : Outcome) (entries : List (String × Record))
    (target : String) :
    (entries.foldl claim outcome).find? target =
      (outcome.find? target).or (entries.lookup target) := by
  induction entries generalizing outcome with
  | nil => simp
  | cons entry rest inductionHypothesis =>
    rw [List.foldl_cons, inductionHypothesis, find?_claim, Option.or_assoc, List.lookup_cons]
    by_cases same : target = entry.1
    · simp [same]
    · simp [same, beq_false_of_ne same]

/-- What an entity adds to the outcome when its turn comes. -/
theorem find?_act (outcome : Outcome) (actor : Entity) (target : String) :
    (act entities index scope outcome actor).find? target =
      (outcome.find? target).or
        (if outcome.contains actor.id then none
        else (claims entities index scope actor).lookup target) := by
  unfold act
  by_cases suppressed : outcome.contains actor.id = true
  · rw [if_pos suppressed, if_pos suppressed, Option.or_none]
  · rw [if_neg suppressed, if_neg suppressed, find?_foldl_claim]

/-- A record is never replaced. -/
theorem find?_outcomeAfter_append {acted : List Entity} {target : String} {record : Record}
    (recorded : (outcomeAfter entities index scope acted).find? target = some record)
    (later : List Entity) :
    (outcomeAfter entities index scope (acted ++ later)).find? target = some record := by
  induction later generalizing acted with
  | nil =>
    rw [List.append_nil]
    exact recorded
  | cons actor rest inductionHypothesis =>
    have next : (outcomeAfter entities index scope (acted ++ [actor])).find? target =
        some record := by
      rw [outcomeAfter_snoc, find?_act, recorded, Option.some_or]
    have shape : acted ++ actor :: rest = acted ++ [actor] ++ rest := by
      rw [List.append_assoc, List.singleton_append]
    rw [shape]
    exact inductionHypothesis next

variable {entities index scope}

/-- The claims of an entity are made in its name, and on other entities that
are listed. -/
theorem claims_spec {actor : Entity} {target : String} {record : Record}
    (member : (target, record) ∈ claims entities index scope actor) :
    record.suppressor = actor.id ∧ target ≠ actor.id ∧
      target ∈ entities.map (·.id) := by
  rcases List.mem_flatMap.mp member with ⟨rule, _, claimed⟩
  rcases List.mem_append.mp claimed with named | matched
  · rcases List.mem_map.mp named with ⟨id, listed, same⟩
    cases same
    rcases List.mem_filter.mp listed with ⟨_, allowed⟩
    rw [Bool.and_eq_true, bne_iff_ne, List.any_eq_true] at allowed
    rcases allowed with ⟨other, entity, known, named⟩
    exact ⟨rfl, other, List.mem_map.mpr ⟨entity, known, eq_of_beq named⟩⟩
  · rcases List.mem_map.mp matched with ⟨id, listed, same⟩
    cases same
    unfold matchedTargets at listed
    split at listed
    · cases listed
    · rcases List.mem_filter.mp listed with ⟨found, other⟩
      rcases List.mem_map.mp found with ⟨entity, fits, rfl⟩
      exact ⟨rfl, bne_iff_ne.mp other,
        List.mem_map_of_mem (List.mem_filter.mp fits).1⟩

/-- A claim that counts for a target is one of the claims. -/
theorem mem_claims_of_lookup {actor : Entity} {target : String} {record : Record}
    (found : (claims entities index scope actor).lookup target = some record) :
    (target, record) ∈ claims entities index scope actor := by
  rcases List.lookup_eq_some_iff.mp found with ⟨before, after, split, _⟩
  rw [split]
  exact List.mem_append_right before List.mem_cons_self

/-- An entity claims exactly its targets. -/
theorem isSome_lookup_claims {actor : Entity} {target : String} :
    ((claims entities index scope actor).lookup target).isSome = true ↔
      target ∈ targets entities index scope actor := by
  rw [targets, List.lookup_isSome_iff]
  constructor
  · rintro ⟨entry, member, same⟩
    rw [eq_of_beq same]
    exact List.mem_map_of_mem member
  · intro member
    rcases List.mem_map.mp member with ⟨entry, claimed, rfl⟩
    exact ⟨entry, claimed, BEq.rfl⟩

/-- No entity is a target of its own. -/
theorem self_not_mem_targets (actor : Entity) :
    actor.id ∉ targets entities index scope actor := by
  intro member
  rcases List.mem_map.mp member with ⟨⟨target, record⟩, claimed, same⟩
  exact (claims_spec claimed).2.1 same

end Suppression
end CharacterSheet
