import CharacterSheet.Proofs.Suppression.Acting

/-!
# When suppression reaches further than one step

An entity that is suppressed when its turn comes does not act.  One that has
acted before can still be suppressed by an entity further down the list, and
what it suppressed stays suppressed.  So the suppressors are free of
suppression exactly if no entity, when it acts, has a target that suppresses
another entity by then.
-/

namespace CharacterSheet
namespace Suppression

/-- No entity in whose name another one is suppressed is suppressed itself. -/
def SuppressorsFree (outcome : Outcome) : Prop :=
  ∀ target record, outcome.find? target = some record →
    outcome.contains record.suppressor = false

variable {entities : List Entity} {index : Index} {scope : Scope}

/-- An entity that acts suppresses all of its targets. -/
theorem contains_of_mem_targets {acted : List Entity} {actor : Entity} {target : String}
    (acts : (outcomeAfter entities index scope acted).contains actor.id = false)
    (member : target ∈ targets entities index scope actor) :
    (outcomeAfter entities index scope (acted ++ [actor])).contains target = true := by
  rw [outcomeAfter_snoc, SortedMap.contains, find?_act, acts, if_neg Bool.false_ne_true,
    Option.isSome_or, isSome_lookup_claims.mpr member, Bool.or_true]

/-- What is not suppressed and not a target of the next entity stays free. -/
theorem contains_snoc_eq_false {acted : List Entity} {actor : Entity} {target : String}
    (free : (outcomeAfter entities index scope acted).contains target = false)
    (spared : target ∉ targets entities index scope actor) :
    (outcomeAfter entities index scope (acted ++ [actor])).contains target = false := by
  have unclaimed : ((claims entities index scope actor).lookup target).isSome = false := by
    apply Bool.eq_false_iff.mpr
    intro claimed
    exact spared (isSome_lookup_claims.mp claimed)
  rw [outcomeAfter_snoc, SortedMap.contains, find?_act, Option.isSome_or]
  rw [SortedMap.contains] at free
  rw [free, Bool.false_or]
  split
  · rfl
  · exact unclaimed

/-- Suppressors stay free while the next entity acts, provided that it has none
of them among its targets. -/
theorem SuppressorsFree.snoc {acted : List Entity} {actor : Entity}
    (free : SuppressorsFree (outcomeAfter entities index scope acted))
    (spares : (outcomeAfter entities index scope acted).contains actor.id = false →
      ∀ target record,
        (outcomeAfter entities index scope acted).find? target = some record →
        record.suppressor ∉ targets entities index scope actor) :
    SuppressorsFree (outcomeAfter entities index scope (acted ++ [actor])) := by
  by_cases suppressed :
      (outcomeAfter entities index scope acted).contains actor.id = true
  · rw [outcomeAfter_snoc, act, if_pos suppressed]
    exact free
  · have acts := Bool.eq_false_iff.mpr suppressed
    intro target record recorded
    rw [outcomeAfter_snoc, find?_act, if_neg suppressed] at recorded
    rcases Option.or_eq_some_iff.mp recorded with old | ⟨_, new⟩
    · exact contains_snoc_eq_false (free target record old) (spares acts target record old)
    · have name := (claims_spec (mem_claims_of_lookup new)).1
      rw [name]
      exact contains_snoc_eq_false acts (self_not_mem_targets actor)

/-- If suppressors are free when some entities have acted, they stay so while the
others act, as long as each spares them. -/
theorem SuppressorsFree.run {before after : List Entity} (split : entities = before ++ after)
    (spares : ∀ before actor after, entities = before ++ actor :: after →
      (outcomeAfter entities index scope before).contains actor.id = false →
        ∀ target record,
          (outcomeAfter entities index scope before).find? target = some record →
          record.suppressor ∉ targets entities index scope actor)
    (free : SuppressorsFree (outcomeAfter entities index scope before)) :
    SuppressorsFree (calculate entities index scope) := by
  induction after generalizing before with
  | nil =>
    rw [List.append_nil] at split
    rw [calculate_eq_outcomeAfter]
    exact split ▸ free
  | cons actor rest inductionHypothesis =>
    have shape : before ++ actor :: rest = before ++ [actor] ++ rest := by
      rw [List.append_assoc, List.singleton_append]
    exact inductionHypothesis (split.trans shape) (free.snoc (spares before actor rest split))

/-- Suppressors are free at the end if no entity that acts has a suppressor
among its targets when its turn comes, and only then. -/
theorem suppressorsFree_calculate_iff (entities : List Entity) (index : Index) (scope : Scope) :
    SuppressorsFree (calculate entities index scope) ↔
      ∀ before actor after, entities = before ++ actor :: after →
        (outcomeAfter entities index scope before).contains actor.id = false →
        ∀ target record,
          (outcomeAfter entities index scope before).find? target = some record →
          record.suppressor ∉ targets entities index scope actor := by
  constructor
  · intro free before actor after split acts target record recorded member
    have final : calculate entities index scope =
        outcomeAfter entities index scope (before ++ [actor] ++ after) := by
      rw [List.append_assoc, List.singleton_append, ← split, calculate_eq_outcomeAfter]
    have kept := find?_outcomeAfter_append entities index scope recorded ([actor] ++ after)
    rw [← List.append_assoc, ← final] at kept
    have caught := contains_of_mem_targets acts member
    rcases Option.isSome_iff_exists.mp caught with ⟨blame, found⟩
    have persists := find?_outcomeAfter_append entities index scope found after
    rw [← final] at persists
    have unsuppressed := free target record kept
    rw [SortedMap.contains, persists] at unsuppressed
    cases unsuppressed
  · intro spares
    refine SuppressorsFree.run (List.nil_append entities).symm spares ?_
    intro target record recorded
    cases recorded

/-- A chain of three entities that suppress each other, with the middle one
listed first. -/
def middleFirst : List Entity :=
  [{ Entity.ofType "b" none with suppression := [Rule.ofIds .applied ["c"]] },
    { Entity.ofType "a" none with suppression := [Rule.ofIds .applied ["b"]] },
    Entity.ofType "c" none]

/-- The middle of a chain suppresses the end before it is suppressed itself. -/
theorem not_suppressorsFree_middleFirst :
    ¬ ∀ (entities : List Entity) (index : Index) (scope : Scope),
      (entities.map (·.id)).Nodup → SuppressorsFree (calculate entities index scope) := by
  intro law
  have recorded : (calculate middleFirst Index.empty .applied).find? "c" =
      some ⟨"b", .byId, none⟩ := by
    decide +kernel
  have free := law middleFirst Index.empty .applied (by decide) "c" _ recorded
  exact absurd free (by decide +kernel)

end Suppression
end CharacterSheet
