import CharacterSheet.Proofs.Suppression.Transitivity
import Mathlib.Data.List.Basic
import Mathlib.Data.List.Induction

/-!
# First come, first served

Where ids tell entities apart, the targets of an entity are the other listed
entities that one of its rules in scope names or matches.  An entity that acts
leaves none of its targets free, so what it claims for itself is what nobody
who acted before it has claimed; and had one of them claimed the entity, it
would not act.

The record of a target is that of the first rule by which its suppressor claims
it, and of the two ways in which this rule may find it, the id counts first.
-/

namespace CharacterSheet
namespace Suppression

namespace Rule

/-- A rule lists the id of an entity. -/
def Names (rule : Rule) (target : Entity) : Prop :=
  target.id ∈ rule.ids

/-- A rule has a filter that matches an entity. -/
def Matches (rule : Rule) (index : Index) (target : Entity) : Prop :=
  ∃ filter, rule.filter = some filter ∧ filter.admits target.view index = true

/-- A rule finds an entity, by its id or by its filter. -/
def Finds (rule : Rule) (index : Index) (target : Entity) : Prop :=
  rule.Names target ∨ rule.Matches index target

/-- A rule finds an entity and is recorded for it: by the id if it lists the id,
and otherwise by the filter. -/
def FindsAs (rule : Rule) (index : Index) (target : Entity) (record : Record) : Prop :=
  record.reason = rule.reason ∧
    (rule.Names target ∧ record.method = .byId ∨
      ¬ rule.Names target ∧ rule.Matches index target ∧ record.method = .byFilter)

end Rule

/-- The rules of an entity that concern a scope. -/
def rulesInScope (scope : Scope) (entity : Entity) : List Rule :=
  entity.suppression.filter fun rule => rule.scope.covers scope

/-- The record is that of the first rule in scope by which the one entity finds
the other. -/
def RecordedByFirstRule (index : Index) (scope : Scope) (actor target : Entity)
    (record : Record) : Prop :=
  ∃ before rule after, rulesInScope scope actor = before ++ rule :: after ∧
    (∀ earlier ∈ before, ¬ earlier.Finds index target) ∧ rule.FindsAs index target record

section Statement

variable (entities : List Entity) (index : Index) (scope : Scope)

/-- One entity would suppress another one that is listed. -/
def HasTarget (actor target : Entity) : Prop :=
  target ∈ entities ∧ target.id ≠ actor.id ∧
    ∃ rule ∈ rulesInScope scope actor, rule.Finds index target

/-- An entity that is listed behind some others is not suppressed when its turn
comes. -/
def ActsBehind (before : List Entity) (actor : Entity) : Prop :=
  (outcomeAfter entities index scope before).contains actor.id = false

/-- One entity suppresses another one by the outcome. -/
def SuppressesAs (actor target : Entity) (record : Record) : Prop :=
  (calculate entities index scope).find? target.id = some record ∧ record.suppressor = actor.id

/-- Who comes first suppresses what it claims, and the records say by whom and
why. -/
structure FirstComeFirstServed : Prop where
  listed : ∀ id record, (calculate entities index scope).find? id = some record →
    id ∈ entities.map (·.id) ∧ record.suppressor ∈ entities.map (·.id) ∧ id ≠ record.suppressor
  /-- A suppressor acts, and neither it nor what it suppresses is a target of
  an entity that acted before it. -/
  unclaimed : ∀ before actor after, entities = before ++ actor :: after →
    ∀ target ∈ entities, ∀ record, SuppressesAs entities index scope actor target record →
      ActsBehind entities index scope before actor ∧
        ∀ front earlier between, before = front ++ earlier :: between →
          ActsBehind entities index scope front earlier →
            ¬ HasTarget entities index scope earlier target ∧
              ¬ HasTarget entities index scope earlier actor
  /-- Every target of an entity that acts is suppressed, by the entity or by one
  before it. -/
  served : ∀ before actor after, entities = before ++ actor :: after →
    ActsBehind entities index scope before actor →
      ∀ target, HasTarget entities index scope actor target →
        ∃ record, (calculate entities index scope).find? target.id = some record ∧
          record.suppressor ∈ (before ++ [actor]).map (·.id)
  reasoned : ∀ actor ∈ entities, ∀ target ∈ entities, ∀ record,
    SuppressesAs entities index scope actor target record →
      RecordedByFirstRule index scope actor target record

end Statement

variable {entities : List Entity} {index : Index} {scope : Scope} {actor target : Entity}
  {record : Record}

/-! ## What an entity claims -/

theorem lookup_map_const {κ α : Type} [BEq κ] [LawfulBEq κ] (keys : List κ) (value : α)
    (key : κ) : (keys.map (·, value)).lookup key = if key ∈ keys then some value else none := by
  induction keys with
  | nil => rfl
  | cons first rest inductionHypothesis =>
    rw [List.map_cons, List.lookup_cons, inductionHypothesis]
    by_cases same : key = first
    · simp [same]
    · simp [same, beq_false_of_ne same]

/-- What is found in a list made of parts is found in the first part that has
it. -/
theorem lookup_flatMap {κ α β : Type} [BEq κ] (items : List α) (part : α → List (κ × β))
    (key : κ) :
    (items.flatMap part).lookup key = items.findSome? fun item => (part item).lookup key := by
  induction items with
  | nil => rfl
  | cons item rest inductionHypothesis =>
    rw [List.flatMap_cons, List.lookup_append, inductionHypothesis, List.findSome?_cons]
    cases (part item).lookup key <;> rfl

section Claiming

variable (distinct : (entities.map (·.id)).Nodup) (listed : target ∈ entities)
  (other : target.id ≠ actor.id)

include listed other

theorem mem_namedTargets_iff {rule : Rule} :
    target.id ∈ namedTargets rule actor.id entities ↔ rule.Names target := by
  have known : (entities.any fun entity => entity.id == target.id) = true :=
    List.any_eq_true.mpr ⟨target, listed, beq_self_eq_true _⟩
  rw [namedTargets, List.mem_filter, known, bne_iff_ne.mpr other]
  exact and_iff_left rfl

include distinct

theorem mem_matchedTargets_iff {rule : Rule} :
    target.id ∈ matchedTargets rule actor.id entities index ↔ rule.Matches index target := by
  unfold matchedTargets Rule.Matches
  cases rule.filter with
  | none => simp
  | some filter =>
    dsimp only
    rw [List.mem_filter, and_iff_left (bne_iff_ne.mpr other), List.mem_map]
    constructor
    · rintro ⟨entity, fits, same⟩
      rcases List.mem_filter.mp fits with ⟨known, admitted⟩
      rw [List.inj_on_of_nodup_map distinct known listed same] at admitted
      exact ⟨filter, rfl, admitted⟩
    · rintro ⟨_, same, admitted⟩
      cases same
      exact ⟨target, List.mem_filter.mpr ⟨listed, admitted⟩, rfl⟩

/-- A rule claims what it finds, by the id first. -/
theorem lookup_ruleClaims_eq_some_iff {rule : Rule} :
    (ruleClaims entities index actor.id rule).lookup target.id = some record ↔
      record.suppressor = actor.id ∧ rule.FindsAs index target record := by
  rcases record with ⟨suppressor, method, reason⟩
  rw [ruleClaims, List.lookup_append, lookup_map_const, lookup_map_const, Rule.FindsAs,
    ← mem_namedTargets_iff listed other, ← mem_matchedTargets_iff distinct listed other]
  by_cases byId : target.id ∈ namedTargets rule actor.id entities
  · simp [byId, eq_comm, and_comm]
  · by_cases byFilter : target.id ∈ matchedTargets rule actor.id entities index
    · simp [byId, byFilter, eq_comm, and_comm]
    · simp [byId, byFilter]

theorem lookup_ruleClaims_eq_none_iff {rule : Rule} :
    (ruleClaims entities index actor.id rule).lookup target.id = none ↔
      ¬ rule.Finds index target := by
  rw [ruleClaims, List.lookup_append, lookup_map_const, lookup_map_const, Rule.Finds,
    ← mem_namedTargets_iff listed other, ← mem_matchedTargets_iff distinct listed other, not_or]
  simp

/-- What an entity claims is recorded for the first rule that finds it. -/
theorem lookup_claims_eq_some_iff :
    (claims entities index scope actor).lookup target.id = some record ↔
      record.suppressor = actor.id ∧ RecordedByFirstRule index scope actor target record := by
  rw [claims, lookup_flatMap, List.findSome?_eq_some_iff]
  simp only [lookup_ruleClaims_eq_none_iff distinct listed other,
    lookup_ruleClaims_eq_some_iff distinct listed other]
  constructor
  · rintro ⟨before, rule, after, split, ⟨named, found⟩, missed⟩
    exact ⟨named, before, rule, after, split, missed, found⟩
  · rintro ⟨named, before, rule, after, split, missed, found⟩
    exact ⟨before, rule, after, split, ⟨named, found⟩, missed⟩

end Claiming

/-- The targets of an entity are the other listed entities that its rules
find. -/
theorem mem_targets_iff (distinct : (entities.map (·.id)).Nodup) (listed : target ∈ entities) :
    target.id ∈ targets entities index scope actor ↔
      HasTarget entities index scope actor target := by
  by_cases same : target.id = actor.id
  · rw [same]
    exact iff_of_false (self_not_mem_targets actor) fun has => has.2.1 same
  · rw [← isSome_lookup_claims, claims, lookup_flatMap, List.findSome?_isSome_iff, HasTarget,
      and_iff_right listed, and_iff_right same]
    refine exists_congr fun rule => and_congr_right fun _ => ?_
    rw [Option.isSome_iff_ne_none, Ne, lookup_ruleClaims_eq_none_iff distinct listed same, not_not]

/-! ## What became of a claim -/

/-- Whoever is suppressed when some entities have acted was free until one of
them, which was not suppressed itself, claimed it. -/
theorem exists_turn_of_recorded {acted : List Entity} {id : String}
    (recorded : (outcomeAfter entities index scope acted).find? id = some record) :
    ∃ before actor after, acted = before ++ actor :: after ∧
      ActsBehind entities index scope before actor ∧
      (outcomeAfter entities index scope before).find? id = none ∧
      (claims entities index scope actor).lookup id = some record := by
  induction acted using List.reverseRecOn with
  | nil => cases recorded
  | append_singleton acted actor inductionHypothesis =>
    rw [outcomeAfter_snoc, find?_act] at recorded
    rcases Option.or_eq_some_iff.mp recorded with earlier | ⟨free, claimed⟩
    · rcases inductionHypothesis earlier with ⟨before, other, after, split, claimed⟩
      refine ⟨before, other, after ++ [actor], ?_, claimed⟩
      rw [split, List.append_assoc, List.cons_append]
    · by_cases suppressed : (outcomeAfter entities index scope acted).contains actor.id = true
      · rw [if_pos suppressed] at claimed
        cases claimed
      · rw [if_neg suppressed] at claimed
        exact ⟨acted, actor, [], rfl, Bool.eq_false_iff.mpr suppressed, free, claimed⟩

/-- Who is suppressed when some entities have acted stays so. -/
theorem contains_outcomeAfter_append {acted : List Entity} {id : String}
    (suppressed : (outcomeAfter entities index scope acted).contains id = true)
    (later : List Entity) :
    (outcomeAfter entities index scope (acted ++ later)).contains id = true := by
  rcases Option.isSome_iff_exists.mp suppressed with ⟨record, recorded⟩
  rw [SortedMap.contains, find?_outcomeAfter_append entities index scope recorded later]
  rfl

/-- Who is free when its turn comes is no target of those that acted before. -/
theorem not_hasTarget_of_free (distinct : (entities.map (·.id)).Nodup)
    {front between : List Entity} {earlier : Entity}
    (acts : ActsBehind entities index scope front earlier)
    (free : (outcomeAfter entities index scope (front ++ earlier :: between)).contains target.id =
      false) :
    ¬ HasTarget entities index scope earlier target := by
  intro has
  have caught := contains_of_mem_targets acts ((mem_targets_iff distinct has.1).mpr has)
  have still := contains_outcomeAfter_append caught between
  rw [List.append_assoc, List.singleton_append, free] at still
  cases still

/-- The entity that suppresses another one has claimed it when its turn came. -/
theorem SuppressesAs.claimed {before after : List Entity}
    (distinct : (entities.map (·.id)).Nodup) (split : entities = before ++ actor :: after)
    (suppresses : SuppressesAs entities index scope actor target record) :
    ActsBehind entities index scope before actor ∧
      (outcomeAfter entities index scope before).find? target.id = none ∧
      (claims entities index scope actor).lookup target.id = some record := by
  rcases suppresses with ⟨recorded, named⟩
  rw [calculate_eq_outcomeAfter] at recorded
  rcases exists_turn_of_recorded recorded with ⟨others, claimant, rest, splitOther, turn⟩
  have sameId : claimant.id = actor.id :=
    ((claims_spec (mem_claims_of_lookup turn.2.2)).1.symm.trans named)
  have listed : actor ∈ entities := split ▸ List.mem_append_cons_self
  have listedOther : claimant ∈ entities := splitOther ▸ List.mem_append_cons_self
  have same : claimant = actor := List.inj_on_of_nodup_map distinct listedOther listed sameId
  subst same
  -- No entity is listed twice, so the turn found is the turn in question.
  have once := List.nodup_middle.mp (split ▸ distinct.of_map)
  have apart := not_or.mp (mt List.mem_append.mpr (List.nodup_cons.mp once).1)
  have turns := (List.append_cons_inj_of_notMem apart.1 apart.2).mp (split.symm.trans splitOther)
  rwa [← turns.1] at turn

/-- Where ids tell entities apart, suppression serves the first to claim. -/
theorem firstComeFirstServed (entities : List Entity) (index : Index) (scope : Scope)
    (distinct : (entities.map (·.id)).Nodup) : FirstComeFirstServed entities index scope where
  listed id record recorded := by
    rw [calculate_eq_outcomeAfter] at recorded
    rcases exists_turn_of_recorded recorded with ⟨before, actor, after, split, -, -, claimed⟩
    rcases claims_spec (mem_claims_of_lookup claimed) with ⟨named, other, listed⟩
    have actorListed : actor.id ∈ entities.map (·.id) := by
      rw [split]
      exact List.mem_map_of_mem List.mem_append_cons_self
    rw [named]
    exact ⟨listed, actorListed, other⟩
  unclaimed before actor after split target _ record suppresses := by
    rcases suppresses.claimed distinct split with ⟨acts, free, -⟩
    have targetFree : (outcomeAfter entities index scope before).contains target.id = false := by
      rw [SortedMap.contains, free]
      rfl
    refine ⟨acts, ?_⟩
    rintro front earlier between rfl earlierActs
    exact ⟨not_hasTarget_of_free distinct earlierActs targetFree,
      not_hasTarget_of_free distinct earlierActs acts⟩
  served before actor after split acts target has := by
    have caught := contains_of_mem_targets acts ((mem_targets_iff distinct has.1).mpr has)
    rcases Option.isSome_iff_exists.mp caught with ⟨record, recorded⟩
    rcases exists_turn_of_recorded recorded with ⟨early, claimant, late, turn, -, -, claimed⟩
    have named := (claims_spec (mem_claims_of_lookup claimed)).1
    have kept := find?_outcomeAfter_append entities index scope recorded after
    rw [List.append_assoc, List.singleton_append, ← split] at kept
    refine ⟨record, kept, ?_⟩
    rw [named, turn]
    exact List.mem_map_of_mem List.mem_append_cons_self
  reasoned actor listed target targetListed record suppresses := by
    rcases List.append_of_mem listed with ⟨before, after, split⟩
    have claimed := (suppresses.claimed distinct split).2.2
    have other := (claims_spec (mem_claims_of_lookup claimed)).2.1
    exact ((lookup_claims_eq_some_iff distinct targetListed other).mp claimed).2

/-- An entity with a rule for each of two scopes, of which the second lists ids
and has a filter; and two others, one of which it finds in both ways. -/
def replacements : List Entity :=
  let replaceable := Filter.strict .all
    [PropertyCondition.onField "category" (.compare .equal) (.str "replaceable")]
  [{ Entity.ofType "archetype" none with
      suppression := [Rule.ofIds .selectable ["smite"],
        ⟨.applied, ["missing", "archetype", "focus"], some replaceable, some "Replaced"⟩] },
    { (Entity.ofType "focus" none).set "category" (.str "replaceable") with
      suppression := [Rule.ofIds .all ["archetype", "smite"]] },
    (Entity.ofType "smite" none).set "category" (.str "replaceable")]

theorem firstComeFirstServed_replacements :
    (replacements.map (·.id)).Nodup ∧
      FirstComeFirstServed replacements Index.empty .applied ∧
      (calculate replacements Index.empty .applied).toList =
        [("focus", ⟨"archetype", .byId, some "Replaced"⟩),
          ("smite", ⟨"archetype", .byFilter, some "Replaced"⟩)] := by
  have distinct : (replacements.map (·.id)).Nodup := by decide
  exact ⟨distinct, firstComeFirstServed replacements Index.empty .applied distinct,
    by decide +kernel⟩

end Suppression
end CharacterSheet
