import CharacterSheet.Proofs.Bonus.Reordering

/-!
# Raising a contribution

A contribution that is raised raises the total of its type or leaves it as it
is, and the total of no other type, with one exception.  A contribution of zero
is dropped.  So if the highest of several amounts of a type that does not add up
is negative and is raised to zero, what counts in its place is the next one,
which is lower.  Amounts are exact here.
-/

namespace CharacterSheet
namespace Breakdown

section Plain

variable {α : Type} {source : Source α} {rest others : List (Source α)} {type : String}

/-- A type that has no part in the replacing of base values has the
contributions that name it. -/
theorem effectiveType?_eq_some_iff_of_plain {replaced : Bool} (notBase : type ≠ BonusType.base)
    (notReplacement : type ≠ BonusType.replacement) :
    effectiveType? replaced source = some type ↔ source.type = type := by
  constructor
  · intro effective
    have reducedAs := reducedType_of_effectiveType? effective
    unfold reducedType at reducedAs
    split at reducedAs
    · exact absurd reducedAs.symm notBase
    · exact reducedAs
  · rintro rfl
    rw [effectiveType?, replaces, beq_eq_false_iff_ne.mpr notReplacement,
      beq_eq_false_iff_ne.mpr notBase, Bool.and_false]
    rfl

variable [Amount α]

theorem mem_amountsOf_contributing {amount : α} (notBase : type ≠ BonusType.base)
    (notReplacement : type ≠ BonusType.replacement) :
    amount ∈ amountsOf (contributing others) type ↔
      ∃ other ∈ others, other.type = type ∧ Amount.contributes other.amount = true ∧
        other.amount = amount := by
  simp only [mem_amountsOf, effectiveType?_eq_some_iff_of_plain notBase notReplacement,
    contributing, List.mem_map, List.mem_filter]
  constructor
  · rintro ⟨_, ⟨other, ⟨listed, contributes⟩, rfl⟩, same, rfl⟩
    exact ⟨other, listed, same, contributes, rfl⟩
  · rintro ⟨other, listed, same, contributes, rfl⟩
    exact ⟨_, ⟨other, ⟨listed, contributes⟩, rfl⟩, same, rfl⟩

theorem amountsOf_contributing_cons (notBase : source.type ≠ BonusType.base)
    (notReplacement : source.type ≠ BonusType.replacement) :
    amountsOf (contributing (source :: rest)) type =
      (if source.type = type then [source.amount].filter Amount.contributes else []) ++
        amountsOf (contributing rest) type := by
  have first : contributing (source :: rest) =
      (if Amount.contributes source.amount then [{ source with relevant := false }] else []) ++
        contributing rest := by
    rw [contributing, List.filter_cons]
    split <;> rfl
  by_cases contributes : Amount.contributes source.amount = true
  · have plain : replaces { source with relevant := false } = false :=
      beq_eq_false_iff_ne.mpr notReplacement
    have effective : effectiveType? ((contributing rest).any replaces)
        { source with relevant := false } = some source.type :=
      (effectiveType?_eq_some_iff_of_plain notBase notReplacement).mpr rfl
    rw [first, if_pos contributes, List.singleton_append, amountsOf, amountsOf, List.any_cons,
      plain, Bool.false_or, List.filter_cons, effective]
    by_cases same : source.type = type
    · simp [same, contributes]
    · simp [same]
  · simp [first, contributes]

end Plain

variable {α : Type} [AddCommGroup α] [LinearOrder α] {table : BonusTable}
  {rest : List (Source α)} {source : Source α}

/-- The total of the amounts of one type. -/
def typeTotal (table : BonusTable) (type : String) (amounts : List α) : α :=
  (reduced table type amounts).sum

theorem typeTotal_nil (table : BonusTable) (type : String) :
    typeTotal table type ([] : List α) = 0 := by
  rw [typeTotal, reduced]
  split <;> rfl

/-- The total is made up of the totals of all types. -/
theorem total_eq_sum_typeTotal (sources : List (Source α)) {among : Finset String}
    (covers : ∀ type ∉ among, amountsOf (contributing sources) type = []) :
    (ofSources table sources).total =
      ∑ type ∈ among, typeTotal table type (amountsOf (contributing sources) type) := by
  have listed : (types (contributing sources)).toFinset ⊆ among := by
    intro type member
    by_contra outside
    exact amountsOf_eq_nil_iff.mp (covers type outside) (List.mem_toFinset.mp member)
  have absent : ∀ type ∈ among, type ∉ (types (contributing sources)).toFinset →
      typeTotal table type (amountsOf (contributing sources) type) = 0 := by
    intro type _ missing
    rw [List.mem_toFinset] at missing
    rw [amountsOf_eq_nil_iff.mpr missing, typeTotal_nil]
  rw [← Finset.sum_subset listed absent, List.sum_toFinset _ (nodup_types _), total_eq_sum,
    relevantPairs_eq, map_allCounted, Multiset.map_coe, Multiset.sum_coe, List.map_flatMap,
    List.flatMap_def, List.sum_flatten, List.map_map]
  refine congrArg List.sum (List.map_congr_left fun type _ => ?_)
  simp [typeTotal, Function.comp_def]

/-- What a contribution of a type of its own adds to the total is seen in the
total of that type alone. -/
theorem total_cons (table : BonusTable) (source : Source α) (rest : List (Source α))
    (notBase : source.type ≠ BonusType.base) (notReplacement : source.type ≠ BonusType.replacement) :
    (ofSources table (source :: rest)).total =
      typeTotal table source.type ([source.amount].filter Amount.contributes ++
          amountsOf (contributing rest) source.type) +
        ∑ type ∈ (types (contributing rest)).toFinset.erase source.type,
          typeTotal table type (amountsOf (contributing rest) type) := by
  have covers : ∀ type ∉ insert source.type (types (contributing rest)).toFinset,
      amountsOf (contributing (source :: rest)) type = [] := by
    intro type outside
    rw [Finset.mem_insert, not_or, List.mem_toFinset] at outside
    rw [amountsOf_contributing_cons notBase notReplacement, if_neg (Ne.symm outside.1),
      List.nil_append, amountsOf_eq_nil_iff]
    exact outside.2
  rw [total_eq_sum_typeTotal _ covers,
    ← Finset.add_sum_erase _ _ (Finset.mem_insert_self source.type _),
    Finset.erase_insert_eq_erase, amountsOf_contributing_cons notBase notReplacement, if_pos rfl]
  refine congrArg _ (Finset.sum_congr rfl fun type member => ?_)
  rw [amountsOf_contributing_cons notBase notReplacement,
    if_neg (Finset.ne_of_mem_erase member).symm, List.nil_append]

/-! ## The total of one type -/

theorem contributes_iff_ne_zero {amount : α} : Amount.contributes amount = true ↔ amount ≠ 0 :=
  decide_eq_true_iff

theorem filter_contributes (amount : α) :
    [amount].filter Amount.contributes = if amount = 0 then [] else [amount] := by
  by_cases zero : amount = 0
  · rw [if_pos zero, List.filter_eq_nil_iff]
    simpa [contributes_iff_ne_zero] using zero
  · rw [if_neg zero, List.filter_eq_self]
    simpa [contributes_iff_ne_zero] using zero

theorem sum_filter_contributes (amount : α) :
    ([amount].filter Amount.contributes).sum = amount := by
  rw [filter_contributes]
  split
  · next zero => exact zero.symm
  · exact List.sum_singleton

theorem typeTotal_of_addsUp {type : String} (adds : table.addsUp type = true) (amounts : List α) :
    typeTotal table type amounts = amounts.sum := by
  rw [typeTotal, reduced, if_pos adds]

theorem typeTotal_of_highest {type : String} {amounts : List α} {highest : α}
    (single : table.addsUp type = false) (nonzero : ∀ amount ∈ amounts, amount ≠ 0)
    (member : highest ∈ amounts) (atMost : ∀ amount ∈ amounts, amount ≤ highest) :
    typeTotal table type amounts = highest := by
  have known : highest? id amounts = some highest :=
    (highest?_id_eq_some_iff fun amount listed =>
      contributes_iff_ne_zero.mpr (nonzero amount listed)).mpr ⟨member, atMost⟩
  rw [typeTotal, reduced, if_neg (by rw [single]; decide), known]
  exact List.sum_singleton

theorem typeTotal_alone {type : String} (single : table.addsUp type = false) (amount : α) :
    typeTotal table type ([amount].filter Amount.contributes) = amount := by
  rw [filter_contributes]
  split
  · next zero => rw [typeTotal_nil, zero]
  · next nonzero =>
    exact typeTotal_of_highest single (by simpa using nonzero) (List.mem_singleton_self _) (by simp)

/-- Of a type that does not add up, an amount counts if it is higher than all
others, unless it is zero. -/
theorem typeTotal_append {type : String} {others : List α} {highest : α}
    (single : table.addsUp type = false) (nonzero : ∀ other ∈ others, other ≠ 0)
    (member : highest ∈ others) (atMost : ∀ other ∈ others, other ≤ highest) (amount : α) :
    typeTotal table type ([amount].filter Amount.contributes ++ others) =
      if amount = 0 then highest else max amount highest := by
  rw [filter_contributes]
  by_cases zero : amount = 0
  · rw [if_pos zero, if_pos zero, List.nil_append]
    exact typeTotal_of_highest single nonzero member atMost
  · rw [if_neg zero, if_neg zero, List.singleton_append]
    refine typeTotal_of_highest single (List.forall_mem_cons.mpr ⟨zero, nonzero⟩) ?_
      (List.forall_mem_cons.mpr ⟨le_max_left _ _, fun other listed =>
        (atMost other listed).trans (le_max_right _ _)⟩)
    rcases max_choice amount highest with first | second
    · rw [first]
      exact List.mem_cons_self
    · rw [second]
      exact List.mem_cons_of_mem _ member

/-! ## Raising one of several contributions -/

/-- A contribution is raised out of the reduction: from below zero, where it was
the highest of several that do not add up, to zero. -/
structure DropsOut (table : BonusTable) (source : Source α) (raised : α)
    (others : List (Source α)) : Prop where
  single : table.addsUp source.type = false
  dropped : raised = 0
  negative : source.amount < 0
  notAlone : ∃ other ∈ others, other.type = source.type ∧ other.amount ≠ 0
  highest : ∀ other ∈ others, other.type = source.type → other.amount ≠ 0 →
    other.amount < source.amount

theorem dropsOut_iff {raised : α} {others : List (Source α)}
    (notBase : source.type ≠ BonusType.base) (notReplacement : source.type ≠ BonusType.replacement) :
    DropsOut table source raised others ↔
      table.addsUp source.type = false ∧ raised = 0 ∧ source.amount < 0 ∧
        amountsOf (contributing others) source.type ≠ [] ∧
        ∀ other ∈ amountsOf (contributing others) source.type, other < source.amount := by
  have present : amountsOf (contributing others) source.type ≠ [] ↔
      ∃ other ∈ others, other.type = source.type ∧ other.amount ≠ 0 := by
    constructor
    · intro nonempty
      rcases List.exists_mem_of_ne_nil _ nonempty with ⟨_, member⟩
      rcases (mem_amountsOf_contributing notBase notReplacement).mp member with
        ⟨other, listed, same, contributes, -⟩
      exact ⟨other, listed, same, contributes_iff_ne_zero.mp contributes⟩
    · rintro ⟨other, listed, same, nonzero⟩
      exact List.ne_nil_of_mem ((mem_amountsOf_contributing notBase notReplacement).mpr
        ⟨other, listed, same, contributes_iff_ne_zero.mpr nonzero, rfl⟩)
  rw [present]
  simp only [mem_amountsOf_contributing notBase notReplacement, contributes_iff_ne_zero]
  constructor
  · rintro ⟨single, dropped, negative, notAlone, highest⟩
    refine ⟨single, dropped, negative, notAlone, ?_⟩
    rintro _ ⟨other, listed, same, nonzero, rfl⟩
    exact highest other listed same nonzero
  · rintro ⟨single, dropped, negative, notAlone, highest⟩
    exact ⟨single, dropped, negative, notAlone, fun other listed same nonzero =>
      highest _ ⟨other, listed, same, nonzero, rfl⟩⟩

variable [IsOrderedAddMonoid α]

/-- Raising an amount lowers the total of its type only from the highest,
negative amount to zero. -/
theorem typeTotal_lt_iff {type : String} {amount raised : α} {others : List α}
    (higher : amount ≤ raised) (nonzero : ∀ other ∈ others, other ≠ 0) :
    typeTotal table type ([raised].filter Amount.contributes ++ others) <
        typeTotal table type ([amount].filter Amount.contributes ++ others) ↔
      table.addsUp type = false ∧ raised = 0 ∧ amount < 0 ∧ others ≠ [] ∧
        ∀ other ∈ others, other < amount := by
  cases adds : table.addsUp type with
  | true =>
    rw [typeTotal_of_addsUp adds, typeTotal_of_addsUp adds, List.sum_append, List.sum_append,
      sum_filter_contributes, sum_filter_contributes, add_lt_add_iff_right]
    exact iff_of_false higher.not_gt fun exception => nomatch exception.1
  | false =>
    by_cases alone : others = []
    · rw [alone, List.append_nil, List.append_nil, typeTotal_alone adds, typeTotal_alone adds]
      exact iff_of_false higher.not_gt fun exception => exception.2.2.2.1 rfl
    · rcases others.toFinset.exists_max_image id
        ((List.toFinset_nonempty_iff _).mpr alone) with ⟨highest, member, atMost⟩
      simp only [List.mem_toFinset, id_eq] at member atMost
      rw [typeTotal_append adds nonzero member atMost, typeTotal_append adds nonzero member atMost]
      have lowest : highest < amount ↔ ∀ other ∈ others, other < amount :=
        ⟨fun below other listed => (atMost other listed).trans_lt below,
          fun below => below highest member⟩
      by_cases dropped : raised = 0
      · rw [if_pos dropped]
        by_cases already : amount = 0
        · rw [if_pos already]
          exact iff_of_false (lt_irrefl _) fun exception => exception.2.2.1.ne already
        · have negative : amount < 0 := lt_of_le_of_ne (dropped ▸ higher) already
          rw [if_neg already, lt_max_iff, or_iff_left (lt_irrefl _), lowest]
          exact ⟨fun below => ⟨rfl, dropped, negative, alone, below⟩,
            fun exception => exception.2.2.2.2⟩
      · rw [if_neg dropped]
        refine iff_of_false (not_lt.mpr ?_) fun exception => dropped exception.2.1
        split
        · exact le_max_right _ _
        · exact max_le_max_right _ higher

/-- Raising a contribution that is neither a base value nor a replacement does
not lower the total, unless that raises it out of the reduction. -/
theorem total_le_iff_not_dropsOut (table : BonusTable) (before after : List (Source α))
    (source : Source α) (raised : α) (higher : source.amount ≤ raised)
    (notBase : source.type ≠ BonusType.base) (notReplacement : source.type ≠ BonusType.replacement) :
    (ofSources table (before ++ source :: after)).total ≤
        (ofSources table (before ++ { source with amount := raised } :: after)).total ↔
      ¬ DropsOut table source raised (before ++ after) := by
  have nonzero : ∀ other ∈ amountsOf (contributing (before ++ after)) source.type, other ≠ 0 :=
    fun _ listed => contributes_iff_ne_zero.mp (contributes_of_mem_amountsOf listed)
  have raisedTotal := total_cons table { source with amount := raised } (before ++ after) notBase
    notReplacement
  rw [← not_lt, not_iff_not, total_perm List.perm_middle, total_perm List.perm_middle, raisedTotal,
    total_cons table source _ notBase notReplacement, add_lt_add_iff_right,
    dropsOut_iff notBase notReplacement]
  exact typeTotal_lt_iff higher nonzero

/-- A penalty of bad luck.  Luck does not add up, so the lightest one counts. -/
def penalty (amount : ℚ) : Source ℚ :=
  .of amount "LUCK" "Curse" "curse"

theorem total_le_iff_not_dropsOut_lifted :
    (penalty (-3)).amount ≤ 2 ∧ (penalty (-3)).type ≠ BonusType.base ∧
      (penalty (-3)).type ≠ BonusType.replacement ∧
      (ofSources .default [penalty (-3), penalty (-5)]).total ≤
        (ofSources .default [penalty 2, penalty (-5)]).total := by
  have higher : (penalty (-3)).amount ≤ 2 := by decide +kernel
  refine ⟨higher, by decide, by decide, ?_⟩
  refine (total_le_iff_not_dropsOut .default [] [penalty (-5)] (penalty (-3)) 2 higher (by decide)
    (by decide)).mpr ?_
  exact fun exception => absurd exception.dropped (by decide)

/-- With the lighter penalty gone, the heavier one counts. -/
theorem not_total_le_lifted :
    (penalty (-3)).amount ≤ 0 ∧ (penalty (-3)).type ≠ BonusType.base ∧
      (penalty (-3)).type ≠ BonusType.replacement ∧
      ¬ (ofSources .default [penalty (-3), penalty (-5)]).total ≤
        (ofSources .default [penalty 0, penalty (-5)]).total := by
  decide +kernel

end Breakdown
end CharacterSheet
