import CharacterSheet.Proofs.SortedMap
import CharacterSheet.Selection.Basic

/-!
# Selections keep to their bounds

A player chooses entities and gives choices up again, one step after the other.
The catalog and the published values may be others at every step.  No step
touches anything of a provider but its choices, and none leads out of the
bounds: a choice is made only if the entity is not chosen yet and fewer
entities are chosen than the selector allows.

So a choice that is refused leaves everything as it was, and a choice that is
made can be taken back.
-/

namespace CharacterSheet
namespace Selection

/-- What a player does to a selection. -/
inductive Step where
  /-- Choose an entity, given the catalog and the published values. -/
  | apply (entity : Entity) (catalog : List Entity) (index : Index)
  /-- Give up the choice of an entity. -/
  | remove (id : String)

/-- The provider after a step. -/
def Step.take (provider : Provider) : Step → Provider
  | apply entity catalog index => (Selection.apply provider entity catalog index).provider
  | remove id => Selection.remove provider id

/-- The provider after some steps, one after the other. -/
def run (provider : Provider) (steps : List Step) : Provider :=
  steps.foldl Step.take provider

/-- The ids of the chosen entities. -/
def selectedIds (provider : Provider) : List String :=
  provider.entities.selected.map (·.id)

/-- No entity is chosen twice, and no more are chosen than a selector allows. -/
structure WithinBounds (selector : Selector) (provider : Provider) : Prop where
  distinct : (selectedIds provider).Nodup
  bounded : provider.entities.selected.length ≤ selector.max

/-- There is a choice left, and the entity is not chosen yet. -/
def CanChoose (provider : Provider) (entity : Entity) : Prop :=
  ∃ selector, provider.selector = some selector ∧ entity.id ∉ selectedIds provider ∧
    provider.entities.selected.length < selector.max

variable {provider : Provider} {entity : Entity} {selector : Selector} {selected : List Entity}

section Choosing

@[simp]
theorem selectedIds_withSelected :
    selectedIds (withSelected provider selected) = selected.map (·.id) :=
  rfl

/-- Numbers are the only reason to refuse a choice. -/
theorem refusal?_eq_none_iff : refusal? provider entity = none ↔ CanChoose provider entity := by
  unfold refusal? CanChoose
  cases provider.selector with
  | none => simp
  | some selector =>
    dsimp only
    by_cases chosen : entity.id ∈ selectedIds provider
    · simp [(any_key_iff Entity.id).mpr chosen, chosen]
    · have unchosen := mt (any_key_iff Entity.id).mp chosen
      rw [if_neg unchosen]
      by_cases full : selector.max ≤ provider.entities.selected.length
      · simp [full, Nat.not_lt.mpr full]
      · simp [full, chosen, Nat.lt_of_not_le full]

/-- What choosing an entity comes to. -/
theorem apply_spec (provider : Provider) (entity : Entity) (catalog : List Entity)
    (index : Index) :
    (¬ CanChoose provider entity ∧
        ∃ error, apply provider entity catalog index = ⟨provider, [], [error]⟩) ∨
      CanChoose provider entity ∧
        ∃ warnings, apply provider entity catalog index =
          ⟨withSelected provider (provider.entities.selected ++ [entity]), warnings, []⟩ := by
  unfold apply
  cases refused : refusal? provider entity with
  | none => exact Or.inr ⟨refusal?_eq_none_iff.mp refused, _, rfl⟩
  | some error =>
    refine Or.inl ⟨fun possible => ?_, error, rfl⟩
    rw [refusal?_eq_none_iff.mpr possible] at refused
    cases refused

/-- A choice is made if it can be. -/
theorem isApplied_apply_iff {catalog : List Entity} {index : Index} :
    (apply provider entity catalog index).isApplied = true ↔ CanChoose provider entity := by
  rcases apply_spec provider entity catalog index with
    ⟨impossible, error, refused⟩ | ⟨possible, warnings, made⟩
  · simp [refused, Applied.isApplied, impossible]
  · simp [made, Applied.isApplied, possible]

/-- Giving up what has just been chosen leaves what was chosen before. -/
theorem remove_chosen (fresh : entity.id ∉ selectedIds provider) :
    remove (withSelected provider (provider.entities.selected ++ [entity])) entity.id =
      provider := by
  have kept : provider.entities.selected.filter (·.id != entity.id) =
      provider.entities.selected := by
    apply List.filter_eq_self.mpr
    intro other member
    apply bne_iff_ne.mpr
    intro same
    exact fresh (same ▸ List.mem_map_of_mem member)
  have left : (provider.entities.selected ++ [entity]).filter (·.id != entity.id) =
      provider.entities.selected := by
    rw [List.filter_append, kept, List.filter_singleton, bne_self_eq_false]
    exact List.append_nil _
  have unfolded : remove (withSelected provider (provider.entities.selected ++ [entity]))
      entity.id = withSelected provider
        ((provider.entities.selected ++ [entity]).filter (·.id != entity.id)) :=
    rfl
  rw [unfolded, left]
  rfl

end Choosing

section Running

/-- A step changes nothing but the chosen entities. -/
theorem take_eq_withSelected (provider : Provider) (step : Step) :
    ∃ selected, step.take provider = withSelected provider selected := by
  cases step with
  | apply entity catalog index =>
    rcases apply_spec provider entity catalog index with
      ⟨-, error, refused⟩ | ⟨-, warnings, made⟩
    · rw [Step.take, refused]
      exact ⟨provider.entities.selected, rfl⟩
    · rw [Step.take, made]
      exact ⟨_, rfl⟩
  | remove id => exact ⟨_, rfl⟩

theorem run_eq_withSelected (provider : Provider) (steps : List Step) :
    ∃ selected, run provider steps = withSelected provider selected := by
  induction steps generalizing provider with
  | nil => exact ⟨provider.entities.selected, rfl⟩
  | cons step rest inductionHypothesis =>
    rcases take_eq_withSelected provider step with ⟨middle, first⟩
    rcases inductionHypothesis (step.take provider) with ⟨selected, others⟩
    refine ⟨selected, ?_⟩
    rw [run, List.foldl_cons, ← run, others, first]
    rfl

namespace WithinBounds

/-- An entity that can be chosen fits within the bounds. -/
theorem choose (within : WithinBounds selector provider)
    (offered : provider.selector = some selector) (possible : CanChoose provider entity) :
    WithinBounds selector
      (withSelected provider (provider.entities.selected ++ [entity])) := by
  rcases possible with ⟨other, same, fresh, room⟩
  rw [offered] at same
  cases same
  constructor
  · rw [selectedIds_withSelected, List.map_append, List.map_singleton, ← List.concat_eq_append]
    exact within.distinct.concat fresh
  · have length : (provider.entities.selected ++ [entity]).length =
        provider.entities.selected.length + 1 := List.length_append
    exact length ▸ room

theorem remove (within : WithinBounds selector provider) (id : String) :
    WithinBounds selector (remove provider id) where
  distinct := within.distinct.sublist (List.filter_sublist.map _)
  bounded := Nat.le_trans (List.length_filter_le _ _) within.bounded

theorem take (within : WithinBounds selector provider)
    (offered : provider.selector = some selector) (step : Step) :
    WithinBounds selector (step.take provider) := by
  cases step with
  | apply entity catalog index =>
    rcases apply_spec provider entity catalog index with
      ⟨-, error, refused⟩ | ⟨possible, warnings, made⟩
    · rw [Step.take, refused]
      exact within
    · rw [Step.take, made]
      exact within.choose offered possible
  | remove id => exact within.remove id

theorem run (within : WithinBounds selector provider)
    (offered : provider.selector = some selector) (steps : List Step) :
    WithinBounds selector (run provider steps) := by
  induction steps generalizing provider with
  | nil => exact within
  | cons step rest inductionHypothesis =>
    rcases take_eq_withSelected provider step with ⟨selected, shape⟩
    have still : (step.take provider).selector = some selector := by
      rw [shape]
      exact offered
    exact inductionHypothesis (within.take offered step) still

end WithinBounds

end Running

/-- However choices are made and given up, they keep to the bounds of the
selector, and what else a provider holds stays as it is.  A choice is made
exactly if there is one left and the entity is not chosen yet.  If it is not
made, the provider stays as it was and there is one error but no warning; if it
is made, giving it up again leads back. -/
theorem keepsBounds :
    (∀ (selector : Selector) (provider : Provider) (steps : List Step),
      provider.selector = some selector → WithinBounds selector provider →
        let final := run provider steps
        WithinBounds selector final ∧ final.granted = provider.granted ∧
          final.selector = provider.selector ∧
          final.entities.granted = provider.entities.granted) ∧
    ∀ (provider : Provider) (entity : Entity) (catalog : List Entity) (index : Index),
      let applied := apply provider entity catalog index
      (applied.isApplied = true ↔ CanChoose provider entity) ∧
        (applied.isApplied = false → ∃ error, applied = ⟨provider, [], [error]⟩) ∧
        (applied.isApplied = true → remove applied.provider entity.id = provider) := by
  constructor
  · intro selector provider steps offered within final
    rcases run_eq_withSelected provider steps with ⟨selected, shape⟩
    have unchanged : final = withSelected provider selected := shape
    refine ⟨within.run offered steps, ?_⟩
    rw [unchanged]
    exact ⟨rfl, rfl, rfl⟩
  · intro provider entity catalog index applied
    refine ⟨isApplied_apply_iff, fun refused => ?_, fun made => ?_⟩
    · rcases apply_spec provider entity catalog index with
        ⟨-, error, outcome⟩ | ⟨possible, -⟩
      · exact ⟨error, outcome⟩
      · rw [isApplied_apply_iff.mpr possible] at refused
        cases refused
    · rcases apply_spec provider entity catalog index with
        ⟨impossible, -⟩ | ⟨⟨selector, -, fresh, -⟩, warnings, outcome⟩
      · exact absurd (isApplied_apply_iff.mp made) impossible
      · have chosen : applied =
            ⟨withSelected provider (provider.entities.selected ++ [entity]), warnings, []⟩ :=
          outcome
        rw [chosen]
        exact remove_chosen fresh

/-- A second choice where only one is allowed, and again once the first is given
up. -/
def exchange : List Step :=
  let dodge := Entity.ofType "dodge" (some "feat")
  let cleave := Entity.ofType "cleave" (some "feat")
  [.apply dodge [dodge] Index.empty, .apply cleave [dodge] Index.empty, .remove "dodge",
    .apply cleave [] Index.empty]

theorem keepsBounds_exchange :
    let selector := Selector.unrestricted "feat" 1 1
    let provider := Provider.ofSelector selector
    let dodge := Entity.ofType "dodge" (some "feat")
    let full := run provider (exchange.take 1)
    (provider.selector = some selector ∧ WithinBounds selector provider ∧
        WithinBounds selector (run provider exchange) ∧
        selectedIds (run provider exchange) = ["cleave"]) ∧
      ((apply full dodge [] Index.empty).isApplied = false ∧
        ∃ error, apply full dodge [] Index.empty = ⟨full, [], [error]⟩) ∧
      (apply provider dodge [] Index.empty).isApplied = true ∧
        remove (apply provider dodge [] Index.empty).provider dodge.id = provider := by
  intro selector provider dodge full
  have within : WithinBounds selector provider := ⟨List.nodup_nil, Nat.zero_le _⟩
  have kept := keepsBounds.1 selector provider exchange rfl within
  have refused : (apply full dodge [] Index.empty).isApplied = false := by decide +kernel
  have made : (apply provider dodge [] Index.empty).isApplied = true := by decide +kernel
  exact ⟨⟨rfl, within, kept.1, by decide +kernel⟩,
    ⟨refused, (keepsBounds.2 full dodge [] Index.empty).2.1 refused⟩,
    made, (keepsBounds.2 provider dodge [] Index.empty).2.2 made⟩

end Selection
end CharacterSheet
