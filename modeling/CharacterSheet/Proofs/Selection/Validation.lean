import CharacterSheet.Proofs.Selection.Bounds

/-!
# Checking choices repeats what making them reported

An entity is judged when it is chosen and again whenever all choices are
checked.  Choosing it reports one cause after the other; the check goes through
all entities for the first cause, then through all of them for the next.  But
every cause looks at one entity at a time, and a warning names the entity that
it is about, so the report of a check comes apart again into what is said of
each entity.  What it says of the latest choice was said when that was made, and
a choice adds nothing to what is said of the others.
-/

namespace CharacterSheet

/-- How a check reports what was reported when an entity was chosen.  Whether
the filter is strict makes a difference to a choice only. -/
def SelectionWarning.standing : SelectionWarning → SelectionWarning
  | filteredOut id => noLongerMeetsFilter id
  | filterMismatch id => noLongerMeetsFilter id
  | warning => warning

namespace Selection

variable {selector : Selector} {selected catalog : List Entity} {entity : Entity} {index : Index}
  {provider : Provider}

/-- What a check goes through all entities for, one cause after the other. -/
def causes (selector : Selector) (catalog : List Entity) (index : Index) :
    List (Entity → List SelectionWarning) :=
  [fun entity => warnIf (rejectedByFilter selector entity index) (.noLongerMeetsFilter entity.id),
    fun entity => warnIf (isNotAllowed selector entity) (.notAllowed entity.id),
    fun entity => (typeWarning? selector entity).toList,
    fun entity => warnIf (isUnknown catalog entity) (.notFound entity.id)]

theorem heldWarnings_eq_flatMap_causes :
    heldWarnings selector selected catalog index =
      (causes selector catalog index).flatMap selected.flatMap := by
  simp [heldWarnings, causes]

section Entities

theorem entity_of_mem_warnIf {cause : Bool} {warning other : SelectionWarning}
    (member : other ∈ warnIf cause warning) : other.entity = warning.entity := by
  cases cause with
  | false => exact absurd member List.not_mem_nil
  | true => rw [List.mem_singleton.mp member]

theorem entity_of_typeWarning? {warning : SelectionWarning}
    (warned : typeWarning? selector entity = some warning) : warning.entity = entity.id := by
  unfold typeWarning? at warned
  split at warned
  · cases warned
  · split at warned
    · cases warned
    · cases warned
      rfl

/-- Every cause names the entity that it looks at. -/
theorem entity_of_mem_causes {report : Entity → List SelectionWarning}
    (cause : report ∈ causes selector catalog index) {warning : SelectionWarning}
    (warned : warning ∈ report entity) : warning.entity = entity.id := by
  simp only [causes, List.mem_cons, List.not_mem_nil, or_false] at cause
  rcases cause with rfl | rfl | rfl | rfl
  · exact entity_of_mem_warnIf warned
  · exact entity_of_mem_warnIf warned
  · exact entity_of_typeWarning? (Option.mem_toList.mp warned)
  · exact entity_of_mem_warnIf warned

/-- What is said of some entities is what is said if there are no others. -/
theorem filter_flatMap_report {report : Entity → List SelectionWarning}
    (named : ∀ entity, ∀ warning ∈ report entity, warning.entity = entity.id)
    (about : String → Bool) :
    (selected.flatMap report).filter (about ·.entity) =
      (selected.filter (about ·.id)).flatMap report := by
  induction selected with
  | nil => rfl
  | cons entity rest inductionHypothesis =>
    rw [List.flatMap_cons, List.filter_append, inductionHypothesis, List.filter_cons]
    cases isMeant : about entity.id with
    | true =>
      have kept : (report entity).filter (about ·.entity) = report entity := by
        apply List.filter_eq_self.mpr
        intro warning member
        rw [named entity warning member, isMeant]
      rw [kept, if_pos rfl, List.flatMap_cons]
    | false =>
      have dropped : (report entity).filter (about ·.entity) = [] := by
        apply List.filter_eq_nil_iff.mpr
        intro warning member
        rw [named entity warning member, isMeant]
        exact Bool.false_ne_true
      rw [dropped, if_neg Bool.false_ne_true, List.nil_append]

theorem filter_heldWarnings (selector : Selector) (selected catalog : List Entity) (index : Index)
    (about : String → Bool) :
    (heldWarnings selector selected catalog index).filter (about ·.entity) =
      heldWarnings selector (selected.filter (about ·.id)) catalog index := by
  rw [heldWarnings_eq_flatMap_causes, heldWarnings_eq_flatMap_causes, List.filter_flatMap]
  apply List.flatMap_congr
  intro report cause
  exact filter_flatMap_report (fun _ _ => entity_of_mem_causes cause) about

end Entities

section Choosing

theorem standing_typeWarning? :
    (typeWarning? selector entity).map SelectionWarning.standing =
      typeWarning? selector entity := by
  unfold typeWarning?
  split
  · rfl
  · split <;> rfl

theorem map_standing_warnIf {cause : Bool} {warning : SelectionWarning} :
    (warnIf cause warning).map SelectionWarning.standing = warnIf cause warning.standing := by
  cases cause <;> rfl

theorem standing_rejection {id : String} :
    (rejection selector id).standing = .noLongerMeetsFilter id := by
  unfold rejection
  split <;> rfl

/-- A check goes through the same causes as a choice, and in the same order. -/
theorem heldWarnings_singleton :
    heldWarnings selector [entity] catalog index =
      (choiceWarnings selector entity catalog index).map SelectionWarning.standing := by
  have typed : (typeWarning? selector entity).toList.map SelectionWarning.standing =
      (typeWarning? selector entity).toList := by
    rw [← Option.toList_map, standing_typeWarning?]
  simp only [heldWarnings, choiceWarnings, List.flatMap_singleton, List.map_append,
    map_standing_warnIf, standing_rejection, typed]
  rfl

/-- Nobody but a new choice has its id. -/
theorem filter_id_of_fresh (fresh : entity.id ∉ selectedIds provider) :
    (provider.entities.selected ++ [entity]).filter (·.id == entity.id) = [entity] := by
  have others : provider.entities.selected.filter (·.id == entity.id) = [] := by
    apply List.filter_eq_nil_iff.mpr
    intro other member same
    exact fresh (beq_iff_eq.mp same ▸ List.mem_map_of_mem member)
  rw [List.filter_append, others, List.filter_singleton, beq_self_eq_true]
  rfl

/-- Everybody but a new choice was chosen before: giving it up leaves the same. -/
theorem filter_others_of_fresh (fresh : entity.id ∉ selectedIds provider) :
    (provider.entities.selected ++ [entity]).filter (·.id != entity.id) =
      provider.entities.selected :=
  congrArg (·.entities.selected) (remove_chosen fresh)

theorem maxExceeded_notMem_boundErrors {current : Nat} (fits : current ≤ selector.max)
    (max other : Nat) : SelectionError.maxExceeded max other ∉ boundErrors selector current := by
  unfold boundErrors
  rw [if_neg (Nat.not_lt.mpr fits), List.append_nil]
  split <;> simp

end Choosing

/-- A check right after a choice says of the chosen entity what the choice said
of it, and of the other entities what a check said before.  The choice does not
exceed the bounds either. -/
theorem validate_apply (provider : Provider) (entity : Entity) (catalog : List Entity)
    (index : Index) (made : (apply provider entity catalog index).isApplied = true) :
    let applied := apply provider entity catalog index
    let before := validate provider catalog index
    let after := validate applied.provider catalog index
    after.warnings.filter (·.entity == entity.id) =
        applied.warnings.map SelectionWarning.standing ∧
      after.warnings.filter (·.entity != entity.id) = before.warnings ∧
      ∀ max current, SelectionError.maxExceeded max current ∉ after.errors := by
  intro applied before after
  have possible := isApplied_apply_iff.mp made
  have unrefused := refusal?_eq_none_iff.mpr possible
  rcases possible with ⟨selector, offered, fresh, room⟩
  let selected := provider.entities.selected ++ [entity]
  have applied_eq : applied =
      ⟨withSelected provider selected, choiceWarnings selector entity catalog index, []⟩ := by
    show apply provider entity catalog index = _
    rw [apply, unrefused, offered]
    rfl
  have before_eq : before = ⟨heldWarnings selector provider.entities.selected catalog index,
      boundErrors selector provider.entities.selected.length⟩ := by
    show validate provider catalog index = _
    rw [validate, offered]
  have after_eq : after =
      ⟨heldWarnings selector selected catalog index, boundErrors selector selected.length⟩ := by
    have kept : (withSelected provider selected).selector = some selector := offered
    show validate applied.provider catalog index = _
    rw [applied_eq, validate, kept]
    rfl
  rw [after_eq, before_eq, applied_eq]
  refine ⟨?_, ?_, ?_⟩
  · have ofChoice := filter_heldWarnings selector selected catalog index (· == entity.id)
    rw [ofChoice, filter_id_of_fresh fresh, heldWarnings_singleton]
  · have ofOthers := filter_heldWarnings selector selected catalog index (· != entity.id)
    rw [ofOthers, filter_others_of_fresh fresh]
  · have fits : selected.length ≤ selector.max := by
      rw [List.length_append, List.length_singleton]
      exact room
    exact maxExceeded_notMem_boundErrors fits

/-- A fighter who may choose three combat feats and has started with a wrong one. -/
def misledFighter : Provider :=
  let combat : Selector :=
    { id := "feat", name := "", type := some "feat", allowed := ["cleave", "focus"]
      filter := some ⟨.all, .strict, [⟨some "category", none, .compare .equal, .str "combat"⟩]⟩
      min := 3, max := 3 }
  withSelected (Provider.ofSelector combat) [Entity.ofType "focus" (some "feat")]

/-- The next choice is wrong in every respect, and the check that follows is
reported cause by cause. -/
theorem validate_apply_misledFighter :
    let fireball := Entity.ofType "fireball" (some "spell")
    let catalog := [Entity.ofType "focus" (some "feat")]
    let applied := apply misledFighter fireball catalog Index.empty
    let after := validate applied.provider catalog Index.empty
    applied.isApplied = true ∧
      after.warnings = [.noLongerMeetsFilter "focus", .noLongerMeetsFilter "fireball",
        .notAllowed "fireball", .wrongType "fireball" (some "spell") "feat",
        .notFound "fireball"] ∧
      after.warnings.filter (·.entity == "fireball") =
        applied.warnings.map SelectionWarning.standing ∧
      after.warnings.filter (·.entity != "fireball") =
        (validate misledFighter catalog Index.empty).warnings ∧
      ∀ max current, SelectionError.maxExceeded max current ∉ after.errors := by
  intro fireball catalog applied after
  have made : applied.isApplied = true := by decide +kernel
  exact ⟨made, by decide +kernel,
    validate_apply misledFighter fireball catalog Index.empty made⟩

end Selection
end CharacterSheet
