/-!
# First occurrences

Several parts of a sheet list each of some things once, in the order in which
they first come up.  The main statements say that nothing is lost or repeated:
`mem_firstOccurrences` and `nodup_firstOccurrences`.  Both follow from what
adding one item at the end does.
-/

namespace CharacterSheet

variable {α : Type} [BEq α]

/-- Add an item at the end of a list unless the list has it. -/
def appendNew (seen : List α) (item : α) : List α :=
  if seen.contains item then seen else seen ++ [item]

/-- Each item once, where it first occurs. -/
def firstOccurrences (items : List α) : List α :=
  items.foldl appendNew []

variable [LawfulBEq α]

theorem mem_appendNew {item wanted : α} {seen : List α} :
    wanted ∈ appendNew seen item ↔ wanted ∈ seen ∨ wanted = item := by
  unfold appendNew
  split
  · rename_i present
    have known : item ∈ seen := by simpa using present
    exact ⟨Or.inl, fun either => either.elim id fun same => same ▸ known⟩
  · rw [List.mem_append, List.mem_singleton]

theorem appendNew_of_mem {item : α} {seen : List α} (known : item ∈ seen) :
    appendNew seen item = seen := by
  rw [appendNew, if_pos (List.contains_iff_mem.mpr known)]

theorem appendNew_of_not_mem {item : α} {seen : List α} (new : item ∉ seen) :
    appendNew seen item = seen ++ [item] := by
  rw [appendNew, if_neg (fun known => new (List.contains_iff_mem.mp known))]

theorem nodup_appendNew {seen : List α} (item : α) (distinct : seen.Nodup) :
    (appendNew seen item).Nodup := by
  unfold appendNew
  split
  · exact distinct
  · rename_i absent
    have fresh : item ∉ seen := by simpa using absent
    refine List.nodup_append.mpr ⟨distinct, by simp, ?_⟩
    intro kept old other new same
    rw [List.mem_singleton] at new
    exact fresh (new ▸ same ▸ old)

theorem mem_foldl_appendNew {item : α} {items seen : List α} :
    item ∈ items.foldl appendNew seen ↔ item ∈ seen ∨ item ∈ items := by
  induction items generalizing seen with
  | nil => simp
  | cons first rest ih => rw [List.foldl_cons, ih, mem_appendNew, List.mem_cons, or_assoc]

theorem nodup_foldl_appendNew {seen : List α} (items : List α) (distinct : seen.Nodup) :
    (items.foldl appendNew seen).Nodup := by
  induction items generalizing seen with
  | nil => exact distinct
  | cons first rest ih => exact ih (nodup_appendNew first distinct)

theorem foldl_appendNew_of_nodup {items seen : List α} (distinct : (seen ++ items).Nodup) :
    items.foldl appendNew seen = seen ++ items := by
  induction items generalizing seen with
  | nil => rw [List.foldl_nil, List.append_nil]
  | cons item rest ih =>
    have fresh : item ∉ seen := fun known =>
      (List.nodup_append.mp distinct).2.2 item known item List.mem_cons_self rfl
    rw [List.append_cons] at distinct
    rw [List.foldl_cons, appendNew_of_not_mem fresh, ih distinct, ← List.append_cons]

theorem mem_firstOccurrences {item : α} {items : List α} :
    item ∈ firstOccurrences items ↔ item ∈ items := by
  simp [firstOccurrences, mem_foldl_appendNew]

theorem nodup_firstOccurrences (items : List α) : (firstOccurrences items).Nodup :=
  nodup_foldl_appendNew items List.nodup_nil

theorem firstOccurrences_concat_of_mem {item : α} {items : List α} (known : item ∈ items) :
    firstOccurrences (items ++ [item]) = firstOccurrences items := by
  rw [firstOccurrences, List.foldl_append]
  exact appendNew_of_mem (mem_firstOccurrences.mpr known)

theorem firstOccurrences_of_nodup {items : List α} (distinct : items.Nodup) :
    firstOccurrences items = items :=
  foldl_appendNew_of_nodup distinct

end CharacterSheet
