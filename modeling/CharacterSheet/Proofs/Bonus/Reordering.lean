import CharacterSheet.Proofs.Bonus.Amounts
import Mathlib

/-!
# Contributions in another order

The order of contributions decides which of two equally high ones counts, in
which order types are reduced, and so in which order amounts are added.  It does
not decide how much counts of which type: with the contributions in another
order, the same amounts of the same types count, as often as before.  So the
total is the same too, wherever adding does not depend on an order.
-/

namespace CharacterSheet
namespace Breakdown

section Types

variable {α : Type} {first second : List (Source α)}

theorem types_perm (same : first.Perm second) :
    (types first).Perm (types second) := by
  refine (List.perm_ext_iff_of_nodup (nodup_types first)
    (nodup_types second)).mpr fun type => ?_
  rw [mem_types_iff, mem_types_iff, same.any_eq]
  simp only [same.mem_iff]

theorem amountsOf_perm (same : first.Perm second) (type : String) :
    (amountsOf first type).Perm (amountsOf second type) := by
  rw [amountsOf, amountsOf, same.any_eq]
  exact (same.filter _).map _

end Types

variable {α : Type} [Amount α] {table : BonusTable} {first second sources : List (Source α)}

theorem contributing_perm (same : first.Perm second) :
    (contributing first).Perm (contributing second) :=
  (same.filter _).map _

/-- What counts, by type and amount, in no order. -/
def relevantPairs (table : BonusTable) (sources : List (Source α)) : Multiset (String × α) :=
  ((ofSources table sources).sources.filter (·.relevant)).map fun source =>
    (reducedType source, source.amount)

/-- What is noted to count is what the total is made of. -/
theorem relevantPairs_eq (table : BonusTable) (sources : List (Source α)) :
    relevantPairs table sources =
      ((allCounted table (contributing sources)).map fun entry =>
        (reducedType entry.1, entry.1.amount) : List (String × α)) := by
  have noted : ((ofSources table sources).sources.filter (·.relevant)).map
      (fun source => (reducedType source, source.amount)) =
        ((contributing sources).zipIdx.filter fun entry =>
          ((allCounted table (contributing sources)).map Prod.snd).contains entry.2).map
            fun entry => (reducedType entry.1, entry.1.amount) := by
    rw [ofSources, List.filter_map, List.map_map]
    rfl
  rw [relevantPairs, noted]
  exact Multiset.coe_eq_coe.mpr ((perm_noted table (contributing sources)).map _)

section Ranked

variable {ρ : Type} [LinearOrder ρ] [ranked : RankedAmount α ρ]

include ranked

/-- The highest of some amounts is the highest in any order. -/
theorem reduced_perm {type : String} {amounts others : List α} (same : amounts.Perm others)
    (contribute : ∀ amount ∈ amounts, Amount.contributes amount = true) :
    (reduced table type amounts).Perm (reduced table type others) := by
  unfold reduced
  split
  · exact same
  have contributeToo : ∀ amount ∈ others, Amount.contributes amount = true :=
    fun amount member => contribute amount (same.mem_iff.mpr member)
  have sameHighest : highest? id amounts = highest? id others := by
    refine Option.ext fun highest => ?_
    rw [highest?_id_eq_some_iff contribute, highest?_id_eq_some_iff contributeToo]
    simp only [same.mem_iff]
  rw [sameHighest]

theorem relevantPairs_perm (same : first.Perm second) :
    relevantPairs table first = relevantPairs table second := by
  rw [relevantPairs_eq, relevantPairs_eq, map_allCounted, map_allCounted]
  have kept := contributing_perm same
  refine Multiset.coe_eq_coe.mpr ((types_perm kept).flatMap fun type _ => ?_)
  exact (reduced_perm (amountsOf_perm kept type)
    fun amount => contributes_of_mem_amountsOf).map _

end Ranked

section Exact

variable {α : Type} [AddCommMonoid α] [LinearOrder α] {first second : List (Source α)}

/-- An exact total is the sum of what counts. -/
theorem total_eq_sum (table : BonusTable) (sources : List (Source α)) :
    (ofSources table sources).total = ((relevantPairs table sources).map Prod.snd).sum := by
  have added : (ofSources table sources).total =
      (allCounted table (contributing sources)).foldl
        (fun total entry => total + entry.1.amount) 0 := rfl
  rw [added, relevantPairs_eq, Multiset.map_coe, Multiset.sum_coe, List.map_map,
    List.sum_eq_foldl, List.foldl_map]
  rfl

theorem total_perm (same : first.Perm second) :
    (ofSources table first).total = (ofSources table second).total := by
  rw [total_eq_sum, total_eq_sum, relevantPairs_perm same]

end Exact

/-- The same amounts of the same types count in any order of the contributions.
If amounts are added exactly, the total is the same as well. -/
theorem counts_in_any_order (table : BonusTable) :
    (∀ first second : List (Source Float), first.Perm second →
      relevantPairs table first = relevantPairs table second) ∧
    ∀ (α : Type) [AddCommMonoid α] [LinearOrder α] (first second : List (Source α)),
      first.Perm second →
        relevantPairs table first = relevantPairs table second ∧
          (ofSources table first).total = (ofSources table second).total :=
  ⟨fun _ _ same => relevantPairs_perm same,
    fun _ _ _ _ _ same => ⟨relevantPairs_perm same, total_perm same⟩⟩

theorem counts_in_any_order_tied :
    (let belt : Source Float := .of 4 BonusType.enhancement "Belt" "belt"
      let spell : Source Float := .of 4 BonusType.enhancement "Spell" "spell"
      [belt, spell].Perm [spell, belt] ∧
        relevantPairs .default [belt, spell] = relevantPairs .default [spell, belt]) ∧
    (let belt : Source ℚ := .of (1 / 2) BonusType.enhancement "Belt" "belt"
      let spell : Source ℚ := .of (1 / 2) BonusType.enhancement "Spell" "spell"
      [belt, spell].Perm [spell, belt] ∧
        (ofSources .default [belt, spell]).total = (ofSources .default [spell, belt]).total) := by
  refine ⟨⟨List.Perm.swap _ _ _, ?_⟩, List.Perm.swap _ _ _, ?_⟩
  · exact (counts_in_any_order .default).1 _ _ (List.Perm.swap _ _ _)
  · exact ((counts_in_any_order .default).2 ℚ _ _ (List.Perm.swap _ _ _)).2

end Breakdown

end CharacterSheet
