import CharacterSheet.Proofs.Phase.Alike
import CharacterSheet.Proofs.SortedMap

/-!
# Changes that never hold

A change whose conditions never hold contributes nothing on any index.  Nothing
is calculated from it but what is read off the target and the formula of a
change whether it holds or not: the ways of moving that have a speed, the
variables that are declared, and the references between them.  So where these
stay what they are, every phase has the same result without the change.
-/

namespace CharacterSheet

section Lists

variable {α β : Type} {before after : List α} {item : α}

theorem filter_of_dropped {keeps : α → Bool} (dropped : keeps item = false) :
    (before ++ item :: after).filter keeps = (before ++ after).filter keeps := by
  rw [List.filter_append, List.filter_append, List.filter_cons, dropped]
  rfl

theorem filterMap_of_dropped {choose : α → Option β} (dropped : choose item = none) :
    (before ++ item :: after).filterMap choose = (before ++ after).filterMap choose := by
  rw [List.filterMap_append, List.filterMap_append, List.filterMap_cons_none dropped]

end Lists

namespace Calculation

/-- A calculation with other changes in the place of its own, some of which are
written on the character itself. -/
def withChanges (calculation : Calculation) (own : List Change)
    (changes : List CompiledChange) : Calculation :=
  { calculation with
    character := { calculation.character with changes := own }
    compiled := { calculation.compiled with changes } }

/-! ## Ways of moving -/

/-- A way of moving that has no speed yet gets the speed zero. -/
theorem find?_foldl_insert (modes : List SpeedMode) (speeds : SortedMap SpeedMode Float)
    (wanted : SpeedMode) :
    (modes.foldl
        (fun speeds mode => if speeds.contains mode then speeds else speeds.insert mode 0)
        speeds).find? wanted =
      (speeds.find? wanted).or (if wanted ∈ modes then some 0 else none) := by
  induction modes generalizing speeds with
  | nil => exact Option.or_none.symm
  | cons mode rest inductionHypothesis =>
    rw [List.foldl_cons, inductionHypothesis]
    by_cases same : wanted = mode
    · subst same
      rw [if_pos List.mem_cons_self]
      by_cases known : speeds.contains wanted = true
      · rw [if_pos known, Option.or_of_isSome known, Option.or_of_isSome known]
      · have absent : speeds.find? wanted = none := Option.not_isSome_iff_eq_none.mp known
        rw [if_neg known, SortedMap.find?_insert_self, absent, Option.some_or, Option.none_or]
    · have kept : (if speeds.contains mode then speeds else speeds.insert mode 0).find? wanted =
          speeds.find? wanted := by
        split
        · rfl
        · exact speeds.find?_insert_of_ne 0 same
      have listed : (wanted ∈ mode :: rest) = (wanted ∈ rest) := by
        rw [List.mem_cons, or_iff_right same]
      simp only [kept, listed]

/-- The ways of moving that changes affect. -/
def affectedModes (changes : List CompiledChange) : List SpeedMode :=
  changes.filterMap fun compiled => speedMode? compiled.change.target

theorem mem_affectedModes {changes : List CompiledChange} {mode : SpeedMode} :
    mode ∈ affectedModes changes ↔
      ∃ compiled ∈ changes, compiled.change.target = .speed mode := by
  rw [affectedModes, List.mem_filterMap]
  refine exists_congr fun compiled => and_congr_right fun _ => ?_
  cases compiled.change.target <;> simp [speedMode?]

theorem find?_baseSpeeds (calculation : Calculation) (mode : SpeedMode) :
    calculation.baseSpeeds.find? mode =
      ((raceSpeeds calculation.character).find? mode).or
        (if mode ∈ affectedModes calculation.compiled.changes then some 0 else none) :=
  find?_foldl_insert _ _ mode

/-! ## Declared variables -/

theorem find?_declareBare (declared : List VariableDefinition) (id wanted : VariableId) :
    (VariableDefinition.declareBare declared id).find? (·.id == wanted) =
      (declared.find? (·.id == wanted)).or
        (if wanted = id then some ⟨wanted, wanted.name, []⟩ else none) := by
  rw [VariableDefinition.declareBare]
  by_cases same : wanted = id
  · subst same
    rw [if_pos rfl]
    by_cases known : declared.any (·.id == wanted) = true
    · rw [if_pos known, Option.or_of_isSome (List.find?_isSome.mpr (List.any_eq_true.mp known))]
    · rw [if_neg known, List.find?_append, List.find?_singleton, if_pos BEq.rfl]
  · rw [if_neg same, Option.or_none]
    split
    · rfl
    · have other : ¬ (id == wanted) = true := fun equal => same (eq_of_beq equal).symm
      rw [List.find?_append, List.find?_singleton, if_neg other, Option.or_none]

/-- A variable that nothing defines is declared in one way only. -/
theorem find?_foldl_declareBare (ids : List VariableId) (declared : List VariableDefinition)
    (wanted : VariableId) :
    (ids.foldl VariableDefinition.declareBare declared).find? (·.id == wanted) =
      (declared.find? (·.id == wanted)).or
        (if wanted ∈ ids then some ⟨wanted, wanted.name, []⟩ else none) := by
  induction ids generalizing declared with
  | nil => exact Option.or_none.symm
  | cons id rest inductionHypothesis =>
    rw [List.foldl_cons, inductionHypothesis, find?_declareBare, Option.or_assoc]
    by_cases same : wanted = id
    · rw [if_pos same, Option.some_or, if_pos (same ▸ List.mem_cons_self)]
    · have listed : (wanted ∈ id :: rest) = (wanted ∈ rest) := by
        rw [List.mem_cons, or_iff_right same]
      simp only [if_neg same, Option.none_or, listed]

/-- A declared variable has its definition, or a bare one if there is none. -/
theorem find?_of_mem_declaredIds {calculation : Calculation} {id : VariableId}
    (declared : id ∈ calculation.declaredIds) :
    calculation.declarations.find? (·.id == id) =
      some ((((calculation.compiled.definitions calculation.character).foldl
        VariableDefinition.declare []).find? (·.id == id)).getD ⟨id, id.name, []⟩) := by
  have found : (calculation.declarations.find? (·.id == id)).isSome = true := by
    rcases List.mem_map.mp declared with ⟨definition, known, rfl⟩
    rw [find?_declarations known, Option.isSome_some]
  revert found
  rw [declarations, find?_foldl_declareBare]
  cases ((calculation.compiled.definitions calculation.character).foldl
      VariableDefinition.declare []).find? (·.id == id) with
  | some definition => exact fun _ => rfl
  | none =>
    by_cases affected : id ∈ calculation.affectedVariables
    · rw [if_pos affected]
      exact fun _ => rfl
    · rw [if_neg affected]
      exact fun found => absurd found Bool.false_ne_true

/-- Where the same variables are evaluated in the same order, they have the
same declarations. -/
theorem sortedDeclarations_withChanges {calculation : Calculation} {own : List Change}
    {changes : List CompiledChange}
    (sameOrder : evaluationOrder (calculation.withChanges own changes).dependencies =
      evaluationOrder calculation.dependencies) :
    (calculation.withChanges own changes).sortedDeclarations =
      calculation.sortedDeclarations := by
  rw [sortedDeclarations, sortedDeclarations, sameOrder]
  apply List.filterMap_congr
  intro id member
  have declared : id ∈ calculation.declaredIds := by
    rw [← nodes_dependencies]
    exact evaluationOrder_subset_nodes _ member
  have declaredAnew : id ∈ (calculation.withChanges own changes).declaredIds := by
    rw [← nodes_dependencies]
    exact evaluationOrder_subset_nodes _ (sameOrder ▸ member)
  rw [find?_of_mem_declaredIds declared, find?_of_mem_declaredIds declaredAnew]
  rfl

/-- Where sources, base speeds and the order of evaluation are the same, every
phase looks at the other changes in the same way. -/
theorem alike_withChanges {calculation : Calculation} {own : List Change}
    {changes : List CompiledChange}
    (same : (calculation.withChanges own changes).sources = calculation.sources)
    (sameBases : (calculation.withChanges own changes).baseSpeeds = calculation.baseSpeeds)
    (sameOrder : evaluationOrder (calculation.withChanges own changes).dependencies =
      evaluationOrder calculation.dependencies) :
    (calculation.withChanges own changes).Alike calculation where
  character := calculation.character.alike_with own calculation.character.entities
  table := rfl
  special := rfl
  sources := same
  contextualSources := rfl
  mandatory := rfl
  offered := rfl
  baseSpeeds := sameBases
  evaluationOrder := sameOrder
  sortedDeclarations := sortedDeclarations_withChanges sameOrder

/-! ## Leaving a change out -/

section Gated

variable {calculation : Calculation} {gated : CompiledChange} {before after : List CompiledChange}
  (split : calculation.compiled.changes = before ++ gated :: after) (own : List Change)

include split

theorem sources_of_gated (never : ∀ index, calculation.admits index gated = false) :
    (calculation.withChanges own (before ++ after)).sources = calculation.sources := by
  funext index selects
  rw [sources, sources, contributions, contributions, split, filter_of_dropped]
  · rfl
  · rw [never, Bool.and_false]

/-- A change leaves the base speeds alone if its way of moving has a speed
without it. -/
theorem baseSpeeds_of_known
    (known : ∀ mode, gated.change.target = .speed mode →
      (calculation.withChanges own (before ++ after)).baseSpeeds.contains mode = true) :
    (calculation.withChanges own (before ++ after)).baseSpeeds = calculation.baseSpeeds := by
  apply SortedMap.ext_find?
  intro mode
  have without : (calculation.withChanges own (before ++ after)).baseSpeeds.find? mode =
      ((raceSpeeds calculation.character).find? mode).or
        (if mode ∈ affectedModes (before ++ after) then some 0 else none) :=
    find?_baseSpeeds _ mode
  have listed : mode ∈ affectedModes (before ++ gated :: after) ↔
      gated.change.target = .speed mode ∨ mode ∈ affectedModes (before ++ after) := by
    simp only [mem_affectedModes, List.mem_append, List.mem_cons, or_and_right, exists_or,
      exists_eq_left]
    exact or_left_comm
  rw [without, find?_baseSpeeds, split]
  by_cases moves : gated.change.target = .speed mode
  · have found := known mode moves
    rw [SortedMap.contains, without] at found
    rw [if_pos (listed.mpr (Or.inl moves))]
    by_cases affected : mode ∈ affectedModes (before ++ after)
    · rw [if_pos affected]
    · rw [if_neg affected, Option.or_none] at found ⊢
      exact (Option.or_of_isSome found).symm
  · have unaffected : (mode ∈ affectedModes (before ++ gated :: after)) =
        (mode ∈ affectedModes (before ++ after)) :=
      propext (listed.trans (or_iff_right moves))
    simp only [unaffected]

/-- A change to something else than a custom variable leaves the dependencies
between custom variables alone. -/
theorem dependencies_of_not_variable
    (other : ∀ id, gated.change.target ≠ .customVariable id) :
    (calculation.withChanges own (before ++ after)).dependencies = calculation.dependencies := by
  have untargeted : variableTarget? gated.change.target = none := by
    cases target : gated.change.target with
    | customVariable id => exact absurd target (other id)
    | _ => rfl
  have affected : (calculation.withChanges own (before ++ after)).affectedVariables =
      calculation.affectedVariables := by
    rw [affectedVariables, affectedVariables, split, filterMap_of_dropped]
    · rfl
    · exact untargeted
  have declared : (calculation.withChanges own (before ++ after)).declarations =
      calculation.declarations := by
    rw [declarations, declarations, affected]
    rfl
  have formulas : (calculation.withChanges own (before ++ after)).formulasOf =
      calculation.formulasOf := by
    funext definition
    rw [formulasOf, formulasOf, split, filter_of_dropped]
    · rfl
    · exact beq_eq_false_iff_ne.mpr (other definition.id)
  exact dependencies_congr declared formulas

end Gated

end Calculation
end CharacterSheet
