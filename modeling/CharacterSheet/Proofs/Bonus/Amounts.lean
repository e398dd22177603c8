import CharacterSheet.Bonus.Aggregate
import CharacterSheet.Proofs.Numeric.Zero
import Mathlib.Algebra.Group.Defs
import Mathlib.Data.List.Induction
import Mathlib.Data.List.Sigma

/-!
# What counts, by types and amounts

Names and places of contributions play no part in what counts: the amounts of
each type are reduced to all of them or to the highest.  Here the reduction is
brought to that form, `map_allCounted`, for amounts of any kind that compare by
a rank of theirs.  Doubles are of that kind, because neither a zero nor an
undefined number contributes, and so are exact amounts.
-/

namespace CharacterSheet

/-- Amounts that compare by their place in a linear order, where no two that
contribute have the same place. -/
class RankedAmount (α : Type) (ρ : outParam Type) [Amount α] [LinearOrder ρ] where
  rank : α → ρ
  atMost_iff_rank : ∀ {x y : α}, Amount.contributes x = true → Amount.contributes y = true →
    (Amount.atMost x y = true ↔ rank x ≤ rank y)
  eq_of_rank_eq : ∀ {x y : α}, Amount.contributes x = true → Amount.contributes y = true →
    rank x = rank y → x = y

namespace Numeric

variable {x y : Float}

theorem contributes_iff :
    Amount.contributes x = true ↔ (x == 0) = false ∧ x.isNaN = false := by
  have unfolded : Amount.contributes x = (!(x == 0) && !x.isNaN) := rfl
  rw [unfolded, Bool.and_eq_true_iff, Bool.not_eq_true', Bool.not_eq_true']

theorem atMost_iff_rank (defined : x.isNaN = false) (definedToo : y.isNaN = false) :
    Amount.atMost x y = true ↔ rank x ≤ rank y :=
  decide_eq_true_iff.trans (le_iff_rank defined definedToo)

instance : RankedAmount Float (Int ×ₗ Int ×ₗ Int) where
  rank := rank
  atMost_iff_rank contributes contributesToo :=
    atMost_iff_rank (contributes_iff.mp contributes).2 (contributes_iff.mp contributesToo).2
  eq_of_rank_eq contributes contributesToo same := by
    rw [contributes_iff] at contributes contributesToo
    -- There are two zeros, but no other number is there twice.
    have equal := unsigned_eq_of_beq ((beq_iff_rank contributes.2 contributesToo.2).mpr same)
    rwa [unsigned, unsigned, contributes.1, contributesToo.1] at equal

end Numeric

section Exact

variable {α : Type} [AddCommMonoid α] [LinearOrder α]

/-- Exact amounts are added and compared as they are, and all but zero
contribute. -/
instance (priority := low) exactAmount : Amount α where
  zero := 0
  add := (· + ·)
  atMost first second := first ≤ second
  contributes amount := amount ≠ 0

instance (priority := low) exactAmountRanked : RankedAmount α α where
  rank := id
  atMost_iff_rank _ _ := decide_eq_true_iff
  eq_of_rank_eq _ _ := id

end Exact

namespace Breakdown

section Types

variable {α : Type} {kept : List (Source α)} {source : Source α} {entry : Source α × Nat}
  {type : String}

/-- The type by whose rule a contribution is reduced: a replacement is reduced
like a base value. -/
def reducedType (source : Source α) : String :=
  if replaces source then BonusType.base else source.type

theorem reducedType_of_effectiveType? {replaced : Bool}
    (effective : effectiveType? replaced source = some type) : reducedType source = type := by
  unfold effectiveType? at effective
  unfold reducedType
  by_cases replacement : replaces source = true
  · rw [if_pos replacement] at effective ⊢
    exact Option.some.inj effective
  · rw [if_neg replacement] at effective ⊢
    split at effective
    · cases effective
    · exact Option.some.inj effective

theorem mem_ofType {replaced : Bool} {entries : List (Source α × Nat)} :
    entry ∈ ofType replaced type entries ↔
      entry ∈ entries ∧ effectiveType? replaced entry.1 = some type := by
  rw [ofType, List.mem_filter, beq_iff_eq]

/-- The amounts of one type. -/
def amountsOf (kept : List (Source α)) (type : String) : List α :=
  (kept.filter fun source => effectiveType? (kept.any replaces) source == some type).map
    (·.amount)

theorem mem_amountsOf {amount : α} :
    amount ∈ amountsOf kept type ↔
      ∃ source ∈ kept, effectiveType? (kept.any replaces) source = some type ∧
        source.amount = amount := by
  simp only [amountsOf, List.mem_map, List.mem_filter, beq_iff_eq, and_assoc]

theorem map_ofType (kept : List (Source α)) (type : String) :
    (ofType (kept.any replaces) type kept.zipIdx).map (·.1.amount) = amountsOf kept type := by
  have chosen : (fun entry : Source α × Nat =>
      effectiveType? (kept.any replaces) entry.1 == some type) =
        (fun source => effectiveType? (kept.any replaces) source == some type) ∘ Prod.fst := rfl
  calc (ofType (kept.any replaces) type kept.zipIdx).map (·.1.amount)
      = ((ofType (kept.any replaces) type kept.zipIdx).map Prod.fst).map (·.amount) := by
        rw [List.map_map]
        rfl
    _ = amountsOf kept type := by
        rw [ofType, chosen, ← List.filter_map, List.zipIdx_map_fst]
        rfl

/-- The types that come up, each once. -/
def types (kept : List (Source α)) : List String :=
  firstOccurrences (kept.filterMap (effectiveType? (kept.any replaces)))

theorem mem_types_iff :
    type ∈ types kept ↔
      ∃ source ∈ kept, effectiveType? (kept.any replaces) source = some type := by
  rw [types, mem_firstOccurrences, List.mem_filterMap]

theorem nodup_types (kept : List (Source α)) : (types kept).Nodup :=
  nodup_firstOccurrences _

theorem amountsOf_eq_nil_iff : amountsOf kept type = [] ↔ type ∉ types kept := by
  rw [amountsOf, List.map_eq_nil_iff, List.filter_eq_nil_iff, mem_types_iff]
  simp only [beq_iff_eq, not_exists, not_and]

end Types

variable {α : Type} [Amount α] {table : BonusTable} {sources kept : List (Source α)}
  {source : Source α} {entry : Source α × Nat} {type : String}

theorem contributing_append (first second : List (Source α)) :
    contributing (first ++ second) = contributing first ++ contributing second := by
  rw [contributing, List.filter_append, List.map_append]
  rfl

theorem contributes_of_mem_contributing (member : source ∈ contributing sources) :
    Amount.contributes source.amount = true := by
  rcases List.mem_map.mp member with ⟨original, passes, rfl⟩
  exact (List.mem_filter.mp passes).2

theorem contributes_of_mem_amountsOf {amount : α}
    (member : amount ∈ amountsOf (contributing sources) type) :
    Amount.contributes amount = true := by
  rcases mem_amountsOf.mp member with ⟨source, listed, -, rfl⟩
  exact contributes_of_mem_contributing listed

/-! ## The highest amount -/

section Highest

variable {ι : Type} {amount : ι → α} {items : List ι} {best item : ι}

/-- The first of the items with the highest amount. -/
def highest? (amount : ι → α) (items : List ι) : Option ι :=
  items.foldl
    (fun best item =>
      match best with
      | none => some item
      | some kept => if Amount.atMost (amount item) (amount kept) then some kept else some item)
    none

theorem highest?_concat (known : highest? amount items = some best) :
    highest? amount (items ++ [item]) =
      if Amount.atMost (amount item) (amount best) then some best else some item := by
  unfold highest? at known ⊢
  rw [List.foldl_append, known]
  rfl

theorem highest?_singleton : highest? amount [item] = some item :=
  rfl

/-- The amount of the highest item is the highest amount. -/
theorem map_highest? (amount : ι → α) (items : List ι) :
    (highest? amount items).map amount = highest? id (items.map amount) := by
  unfold highest?
  rw [List.foldl_map, ← Option.map_none (f := amount)]
  symm
  refine List.foldl_hom (Option.map amount) fun best item => ?_
  cases best with
  | none => rfl
  | some kept =>
    have split := apply_ite (Option.map amount)
      (Amount.atMost (amount item) (amount kept) = true) (some kept) (some item)
    exact split.symm

/-- If amounts compare by rank, the highest item is higher than those before it,
and at least as high as those after it. -/
theorem exists_highest? {ρ : Type} [LinearOrder ρ] {rank : α → ρ}
    (ranked : ∀ first ∈ items, ∀ second ∈ items,
      (Amount.atMost (amount first) (amount second) = true ↔
        rank (amount first) ≤ rank (amount second)))
    (present : items ≠ []) :
    ∃ before best after, items = before ++ best :: after ∧ highest? amount items = some best ∧
      (∀ item ∈ before, rank (amount item) < rank (amount best)) ∧
      ∀ item ∈ after, rank (amount item) ≤ rank (amount best) := by
  induction items using List.reverseRecOn with
  | nil => exact absurd rfl present
  | append_singleton items last inductionHypothesis =>
    by_cases alone : items = []
    · subst alone
      exact ⟨[], last, [], rfl, highest?_singleton, by simp, by simp⟩
    rcases inductionHypothesis (fun first isFirst second isSecond =>
      ranked first (List.mem_append_left _ isFirst) second (List.mem_append_left _ isSecond))
      alone with ⟨before, best, after, rfl, known, lower, atMost⟩
    have compared := ranked last (by simp) best (by simp)
    rw [highest?_concat known]
    by_cases small : rank (amount last) ≤ rank (amount best)
    · refine ⟨before, best, after ++ [last], by simp, if_pos (compared.mpr small), lower, ?_⟩
      intro item member
      rcases List.mem_append.mp member with early | late
      · exact atMost item early
      · rwa [List.mem_singleton.mp late]
    · refine ⟨_, last, [], rfl, if_neg (mt compared.mp small), ?_, by simp⟩
      intro item member
      rcases List.mem_append.mp member with early | late
      · exact (lower item early).trans (not_le.mp small)
      · rcases List.mem_cons.mp late with rfl | late
        · exact not_le.mp small
        · exact (atMost item late).trans_lt (not_le.mp small)

theorem mem_of_highest? (known : highest? amount items = some best) : best ∈ items := by
  induction items using List.reverseRecOn generalizing best with
  | nil => cases known
  | append_singleton items last inductionHypothesis =>
    cases early : highest? amount items with
    | none =>
      have itself : highest? amount (items ++ [last]) = some last := by
        unfold highest? at early ⊢
        rw [List.foldl_append, early]
        rfl
      rw [Option.some.inj (known.symm.trans itself)]
      exact List.mem_append_right _ (List.mem_singleton_self _)
    | some kept =>
      rw [highest?_concat early] at known
      split at known
      · rw [← Option.some.inj known]
        exact List.mem_append_left _ (inductionHypothesis early)
      · rw [← Option.some.inj known]
        exact List.mem_append_right _ (List.mem_singleton_self _)

/-- Which amount is the highest can be told without their order. -/
theorem highest?_id_eq_some_iff {ρ : Type} [LinearOrder ρ] [RankedAmount α ρ]
    {amounts : List α} {highest : α}
    (contribute : ∀ amount ∈ amounts, Amount.contributes amount = true) :
    highest? id amounts = some highest ↔
      highest ∈ amounts ∧
        ∀ amount ∈ amounts, RankedAmount.rank amount ≤ RankedAmount.rank highest := by
  have spec : amounts ≠ [] → ∃ best ∈ amounts, highest? id amounts = some best ∧
      ∀ amount ∈ amounts, RankedAmount.rank amount ≤ RankedAmount.rank best := by
    intro present
    rcases exists_highest? (fun first isFirst second isSecond =>
      RankedAmount.atMost_iff_rank (contribute first isFirst) (contribute second isSecond))
      present with ⟨before, best, after, rfl, known, lower, atMost⟩
    refine ⟨best, List.mem_append_cons_self, known, fun amount member => ?_⟩
    rcases List.mem_append.mp member with early | late
    · exact (lower amount early).le
    · rcases List.mem_cons.mp late with rfl | late
      · exact le_rfl
      · exact atMost amount late
  constructor
  · intro known
    rcases spec (List.ne_nil_of_mem (mem_of_highest? known)) with ⟨best, member, isBest, atMost⟩
    rw [Option.some.inj (known.symm.trans isBest)]
    exact ⟨member, atMost⟩
  · rintro ⟨member, atMost⟩
    rcases spec (List.ne_nil_of_mem member) with ⟨best, bestMember, known, bestAtMost⟩
    rw [known, RankedAmount.eq_of_rank_eq (contribute best bestMember)
      (contribute highest member) ((atMost best bestMember).antisymm (bestAtMost highest member))]

end Highest

/-! ## The reduction of each type -/

/-- The amounts that count among those of one type. -/
def reduced (table : BonusTable) (type : String) (amounts : List α) : List α :=
  if table.addsUp type then amounts else (highest? id amounts).toList

theorem firstHighest?_eq (entries : List (Source α × Nat)) :
    firstHighest? entries = highest? (·.1.amount) entries := by
  unfold firstHighest? highest?
  congr
  funext best entry
  cases best <;> rfl

theorem map_counted (entries : List (Source α × Nat)) :
    (counted table type entries).map (·.1.amount) =
      reduced table type (entries.map (·.1.amount)) := by
  unfold counted reduced
  split
  · rfl
  · rw [firstHighest?_eq, ← map_highest?, Option.toList_map]

theorem counted_sublist (entries : List (Source α × Nat)) :
    (counted table type entries).Sublist entries := by
  unfold counted
  split
  · exact List.Sublist.refl _
  · cases known : firstHighest? entries with
    | none => exact List.nil_sublist _
    | some best =>
      rw [firstHighest?_eq] at known
      exact List.singleton_sublist.mpr (mem_of_highest? known)

theorem allCounted_eq (table : BonusTable) (kept : List (Source α)) :
    allCounted table kept = (types kept).flatMap fun type =>
      counted table type (ofType (kept.any replaces) type kept.zipIdx) :=
  rfl

/-- What counts are the reduced amounts of all types. -/
theorem map_allCounted (table : BonusTable) (kept : List (Source α)) :
    (allCounted table kept).map (fun entry => (reducedType entry.1, entry.1.amount)) =
      (types kept).flatMap fun type =>
        (reduced table type (amountsOf kept type)).map (type, ·) := by
  rw [allCounted_eq, List.map_flatMap]
  refine List.flatMap_congr fun type _ => ?_
  rw [← map_ofType, ← map_counted, List.map_map]
  refine List.map_congr_left fun entry member => ?_
  have ofThisType := (mem_ofType.mp ((counted_sublist _).subset member)).2
  rw [reducedType_of_effectiveType? ofThisType]
  rfl

/-! ## What the breakdown notes -/

theorem mem_zipIdx_of_mem_allCounted (member : entry ∈ allCounted table kept) :
    entry ∈ kept.zipIdx := by
  rcases List.mem_flatMap.mp member with ⟨type, -, counts⟩
  exact (mem_ofType.mp ((counted_sublist _).subset counts)).1

theorem nodup_allCounted (table : BonusTable) (kept : List (Source α)) :
    (allCounted table kept).Nodup := by
  refine List.nodup_flatMap.mpr ⟨fun type _ => ?_, ?_⟩
  · have places : kept.zipIdx.Nodup := (List.nodup_zipIdx_map_snd kept).of_map
    exact (places.filter _).sublist (counted_sublist _)
  · refine (nodup_types kept).imp fun different entry here there => different ?_
    have hereType := (mem_ofType.mp ((counted_sublist _).subset here)).2
    have thereType := (mem_ofType.mp ((counted_sublist _).subset there)).2
    exact Option.some.inj (hereType.symm.trans thereType)

/-- The noted contributions are those that count, in another order. -/
theorem perm_noted (table : BonusTable) (kept : List (Source α)) :
    (kept.zipIdx.filter fun entry =>
      ((allCounted table kept).map Prod.snd).contains entry.2).Perm (allCounted table kept) := by
  have places := List.nodup_zipIdx_map_snd kept
  refine (List.perm_ext_iff_of_nodup (places.of_map.filter _)
    (nodup_allCounted table kept)).mpr fun entry => ?_
  rw [List.mem_filter, List.contains_iff_mem, List.mem_map]
  constructor
  · rintro ⟨listed, other, counts, samePlace⟩
    rwa [← List.inj_on_of_nodup_map places (mem_zipIdx_of_mem_allCounted counts) listed samePlace]
  · exact fun counts => ⟨mem_zipIdx_of_mem_allCounted counts, entry, counts, rfl⟩

end Breakdown

end CharacterSheet
