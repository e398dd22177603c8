import CharacterSheet.Bonus.Stat
import CharacterSheet.Proofs.Bonus.Amounts
import CharacterSheet.Proofs.Places

/-!
# What counts in a reduction

The reduction of contributions is described without saying how it is done.
Every contribution that is neither zero nor undefined is kept in its place, and
belongs to at most one type.  Of a type that adds up all contributions count,
and of any other exactly one, which is higher than those before it and at least
as high as those after it.  The total adds what counts, one type after the
other.
-/

namespace CharacterSheet
namespace Breakdown

variable {table : BonusTable} {sources : List (Source Float)} {type : String}
  {source : Source Float}

/-- A base value that something replaces. -/
def Replaced (sources : List (Source Float)) (source : Source Float) : Prop :=
  source.type = BonusType.base ∧ ∃ other ∈ sources, other.type = BonusType.replacement

/-- A replacement counts as a base value, and anything else as what it is,
unless it is replaced. -/
def CountsAs (sources : List (Source Float)) (type : String) (source : Source Float) : Prop :=
  (source.type = BonusType.replacement ∧ type = BonusType.base) ∨
    (source.type ≠ BonusType.replacement ∧ source.type = type ∧ ¬ Replaced sources source)

def unjudged (source : Source Float) : Source Float :=
  { source with relevant := false }

theorem any_replaces_iff :
    sources.any replaces = true ↔ ∃ other ∈ sources, other.type = BonusType.replacement := by
  simp only [List.any_eq_true, replaces, beq_iff_eq]

theorem effectiveType?_eq_none_iff :
    effectiveType? (sources.any replaces) source = none ↔ Replaced sources source := by
  have different : BonusType.base ≠ BonusType.replacement := by decide
  unfold effectiveType? Replaced
  rw [← any_replaces_iff]
  by_cases replacement : source.type = BonusType.replacement
  · simp [replaces, replacement, different.symm]
  · simp [replaces, replacement, and_comm]

theorem effectiveType?_eq_some_iff :
    effectiveType? (sources.any replaces) source = some type ↔ CountsAs sources type source := by
  unfold CountsAs
  by_cases replacement : source.type = BonusType.replacement
  · simp [effectiveType?, replaces, replacement, eq_comm]
  · have notReplacement : replaces source = false := beq_eq_false_iff_ne.mpr replacement
    rw [← effectiveType?_eq_none_iff, effectiveType?, notReplacement]
    by_cases replaced : (sources.any replaces && source.type == BonusType.base) = true
    · simp [replaced, replacement]
    · simp [replaced, replacement]

instance : Decidable (CountsAs sources type source) :=
  decidable_of_iff _ effectiveType?_eq_some_iff

/-- All types of some contributions, in the order in which they come up. -/
structure InOrderOfAppearance (sources : List (Source Float)) (types : List String) : Prop where
  mem_iff : ∀ type, type ∈ types ↔ ∃ source ∈ sources, CountsAs sources type source
  ordered : types.Pairwise fun first second =>
    sources.findIdx (CountsAs sources first ·) < sources.findIdx (CountsAs sources second ·)

/-- The amounts of one type that count. -/
def relevantAmounts (sources : List (Source Float)) (type : String) : List Float :=
  (sources.filter fun source => source.relevant && CountsAs sources type source).map (·.amount)

/-- The one contribution of a type that counts: the first of the highest. -/
structure IsFirstHighest (sources : List (Source Float)) (type : String)
    (before : List (Source Float)) (best : Source Float) (after : List (Source Float)) : Prop where
  split : sources = before ++ best :: after
  countsAs : CountsAs sources type best
  relevant : best.relevant = true
  before_lower : ∀ source ∈ before, CountsAs sources type source →
    source.amount < best.amount ∧ source.relevant = false
  after_atMost : ∀ source ∈ after, CountsAs sources type source →
    source.amount ≤ best.amount ∧ source.relevant = false

/-- What the reduction of contributions is documented to be. -/
structure Reduces (table : BonusTable) (sources : List (Source Float))
    (outcome : Breakdown Float) : Prop where
  kept : outcome.sources.map unjudged =
    (sources.filter fun source => source.amount != 0 && !source.amount.isNaN).map unjudged
  additive : ∀ type, table.addsUp type = true → ∀ source ∈ outcome.sources,
    CountsAs outcome.sources type source → source.relevant = true
  highest : ∀ type, table.addsUp type = false →
    (∃ source ∈ outcome.sources, CountsAs outcome.sources type source) →
      ∃ before best after, IsFirstHighest outcome.sources type before best after
  replaced : ∀ source ∈ outcome.sources, Replaced outcome.sources source →
    source.relevant = false
  total : ∃ types, InOrderOfAppearance outcome.sources types ∧
    outcome.total = (types.flatMap (relevantAmounts outcome.sources)).foldl (· + ·) 0

/-! ## The order of the types -/

/-- Things that come up in a list are listed in the order of their first
places. -/
theorem pairwise_firstOccurrences {α : Type} (kind : α → Option String) (items : List α) :
    (firstOccurrences (items.filterMap kind)).Pairwise fun first second =>
      items.findIdx (kind · == some first) < items.findIdx (kind · == some second) := by
  induction items using List.reverseRecOn with
  | nil => exact List.Pairwise.nil
  | append_singleton items item inductionHypothesis =>
    have early : ∀ wanted ∈ firstOccurrences (items.filterMap kind),
        (items ++ [item]).findIdx (kind · == some wanted) =
          items.findIdx (kind · == some wanted) ∧
        items.findIdx (kind · == some wanted) < items.length := by
      intro wanted listed
      rcases List.mem_filterMap.mp (mem_firstOccurrences.mp listed) with ⟨found, member, same⟩
      have inside : items.findIdx (kind · == some wanted) < items.length :=
        List.findIdx_lt_length_of_exists ⟨found, member, beq_iff_eq.mpr same⟩
      exact ⟨by rw [List.findIdx_append, if_pos inside], inside⟩
    have kept : (firstOccurrences (items.filterMap kind)).Pairwise fun first second =>
        (items ++ [item]).findIdx (kind · == some first) <
          (items ++ [item]).findIdx (kind · == some second) := by
      refine inductionHypothesis.imp_of_mem ?_
      intro first second listedFirst listedSecond before
      rw [(early first listedFirst).1, (early second listedSecond).1]
      exact before
    cases known : kind item with
    | none =>
      rw [List.filterMap_append, List.filterMap_cons_none known, List.filterMap_nil,
        List.append_nil]
      exact kept
    | some last =>
      have step : firstOccurrences ((items ++ [item]).filterMap kind) =
          appendNew (firstOccurrences (items.filterMap kind)) last := by
        rw [List.filterMap_append, List.filterMap_cons_some known, List.filterMap_nil,
          firstOccurrences, List.foldl_append]
        rfl
      rw [step]
      by_cases listed : last ∈ firstOccurrences (items.filterMap kind)
      · rw [appendNew_of_mem listed]
        exact kept
      · rw [appendNew_of_not_mem listed]
        refine List.pairwise_append.mpr ⟨kept, List.pairwise_singleton _ _, ?_⟩
        intro first listedFirst second isLast
        rw [List.mem_singleton.mp isLast, (early first listedFirst).1]
        have outside : items.findIdx (kind · == some last) = items.length := by
          rw [List.findIdx_eq_length]
          intro other member
          refine beq_eq_false_iff_ne.mpr fun same => listed ?_
          exact mem_firstOccurrences.mpr (List.mem_filterMap.mpr ⟨other, member, same⟩)
        rw [List.findIdx_append, outside, if_neg (Nat.lt_irrefl _)]
        exact Nat.lt_of_lt_of_le (early first listedFirst).2 (Nat.le_add_left _ _)

theorem exists_firstHighest? {entries : List (Source Float × Nat)} (nonempty : entries ≠ [])
    (defined : ∀ entry ∈ entries, entry.1.amount.isNaN = false) :
    ∃ before best after, entries = before ++ best :: after ∧
      firstHighest? entries = some best ∧
      (∀ entry ∈ before, entry.1.amount < best.1.amount) ∧
      ∀ entry ∈ after, entry.1.amount ≤ best.1.amount := by
  have ranked : ∀ first ∈ entries, ∀ second ∈ entries,
      (Amount.atMost first.1.amount second.1.amount = true ↔
        Numeric.rank first.1.amount ≤ Numeric.rank second.1.amount) :=
    fun first isFirst second isSecond =>
      Numeric.atMost_iff_rank (defined first isFirst) (defined second isSecond)
  rcases exists_highest? ranked nonempty with ⟨before, best, after, rfl, known, lower, atMost⟩
  have definedBest := defined best List.mem_append_cons_self
  refine ⟨before, best, after, rfl, (firstHighest?_eq _).trans known, ?_, ?_⟩
  · intro entry early
    rw [Numeric.lt_iff_rank (defined entry (List.mem_append_left _ early)) definedBest]
    exact lower entry early
  · intro entry late
    have listed := List.mem_append_right before (List.mem_cons_of_mem best late)
    rw [Numeric.le_iff_rank (defined entry listed) definedBest]
    exact atMost entry late

/-! ## What counts, by its place -/

/-- Whether a contribution stands at a place that counts. -/
def isNoted (table : BonusTable) (kept : List (Source Float)) (entry : Source Float × Nat) : Bool :=
  ((allCounted table kept).map Prod.snd).contains entry.2

/-- Contributions with a note on each whether it counts. -/
def judged (table : BonusTable) (kept : List (Source Float)) : List (Source Float) :=
  kept.zipIdx.map fun entry => { entry.1 with relevant := isNoted table kept entry }

/-- The contributions of one type, with their places. -/
def members (kept : List (Source Float)) (type : String) : List (Source Float × Nat) :=
  ofType (kept.any replaces) type kept.zipIdx

variable {kept : List (Source Float)} {entry : Source Float × Nat}

theorem mem_members :
    entry ∈ members kept type ↔ entry ∈ kept.zipIdx ∧ CountsAs kept type entry.1 := by
  rw [members, ofType, List.mem_filter, beq_iff_eq, effectiveType?_eq_some_iff]

theorem eq_of_place_eq {other : Source Float × Nat} (member : entry ∈ kept.zipIdx)
    (otherMember : other ∈ kept.zipIdx) (same : entry.2 = other.2) : entry = other :=
  List.inj_on_of_nodup_map (List.nodup_zipIdx_map_snd kept) member otherMember same

theorem countsAs_unique {other : String} (first : CountsAs kept type source)
    (second : CountsAs kept other source) : type = other := by
  rw [← effectiveType?_eq_some_iff] at first second
  exact Option.some.inj (first.symm.trans second)

theorem not_countsAs_of_replaced (replaced : Replaced kept source) :
    ¬ CountsAs kept type source := by
  rw [← effectiveType?_eq_none_iff] at replaced
  rw [← effectiveType?_eq_some_iff, replaced]
  exact Option.some_ne_none type ∘ Eq.symm

theorem counted_of_addsUp (adds : table.addsUp type = true) :
    counted table type (members kept type) = members kept type :=
  if_pos adds

/-- Of a type that does not add up, the first of the highest counts. -/
theorem exists_counted (single : table.addsUp type = false)
    (defined : ∀ source ∈ kept, source.amount.isNaN = false) (present : members kept type ≠ []) :
    ∃ before best after, members kept type = before ++ best :: after ∧
      counted table type (members kept type) = [best] ∧
      (∀ entry ∈ before, entry.1.amount < best.1.amount) ∧
      ∀ entry ∈ after, entry.1.amount ≤ best.1.amount := by
  have definedMembers : ∀ entry ∈ members kept type, entry.1.amount.isNaN = false :=
    fun entry member => defined entry.1 (List.fst_mem_of_mem_zipIdx (mem_members.mp member).1)
  rcases exists_firstHighest? present definedMembers with
    ⟨before, best, after, split, known, lower, atMost⟩
  refine ⟨before, best, after, split, ?_, lower, atMost⟩
  rw [counted, if_neg (by rw [single]; decide), known, Option.toList_some]

theorem mem_members_of_mem_counted (defined : ∀ source ∈ kept, source.amount.isNaN = false)
    (member : entry ∈ counted table type (members kept type)) : entry ∈ members kept type := by
  cases adds : table.addsUp type with
  | true => rwa [counted_of_addsUp adds] at member
  | false =>
    by_cases present : members kept type = []
    · rw [present, counted, if_neg (by rw [adds]; decide)] at member
      exact absurd member List.not_mem_nil
    · rcases exists_counted adds defined present with ⟨before, best, after, split, only, -⟩
      rw [only, List.mem_singleton] at member
      rw [split, member]
      exact List.mem_append_right _ List.mem_cons_self

theorem mem_allCounted (defined : ∀ source ∈ kept, source.amount.isNaN = false) :
    entry ∈ allCounted table kept ↔
      ∃ type, entry ∈ counted table type (members kept type) := by
  unfold allCounted
  dsimp only
  rw [List.mem_flatMap]
  refine exists_congr fun type => ⟨And.right, fun member => ⟨?_, member⟩⟩
  have inside := mem_members.mp (mem_members_of_mem_counted defined member)
  exact mem_firstOccurrences.mpr (List.mem_filterMap.mpr
    ⟨entry.1, List.fst_mem_of_mem_zipIdx inside.1, effectiveType?_eq_some_iff.mpr inside.2⟩)

/-- The note on a contribution says whether it counts as one of its type. -/
theorem isNoted_iff (defined : ∀ source ∈ kept, source.amount.isNaN = false)
    (member : entry ∈ members kept type) :
    isNoted table kept entry = true ↔
      entry ∈ counted table type (members kept type) := by
  rw [isNoted, List.contains_iff_mem, List.mem_map]
  constructor
  · rintro ⟨other, counts, same⟩
    rcases (mem_allCounted defined).mp counts with ⟨otherType, countsAs⟩
    have otherMember := mem_members_of_mem_counted defined countsAs
    have itself : other = entry :=
      eq_of_place_eq (mem_members.mp otherMember).1 (mem_members.mp member).1 same
    subst itself
    rwa [countsAs_unique (mem_members.mp member).2 (mem_members.mp otherMember).2]
  · exact fun counts => ⟨entry, (mem_allCounted defined).mpr ⟨type, counts⟩, rfl⟩

theorem isNoted_of_replaced (defined : ∀ source ∈ kept, source.amount.isNaN = false)
    (member : entry ∈ kept.zipIdx) (replaced : Replaced kept entry.1) :
    isNoted table kept entry = false := by
  rw [← Bool.not_eq_true, isNoted, List.contains_iff_mem, List.mem_map]
  rintro ⟨other, counts, same⟩
  rcases (mem_allCounted defined).mp counts with ⟨type, countsAs⟩
  have otherMember := mem_members.mp (mem_members_of_mem_counted defined countsAs)
  rw [eq_of_place_eq otherMember.1 member same] at otherMember
  exact not_countsAs_of_replaced replaced otherMember.2

/-! ## The reduction -/

theorem map_unjudged_judged : (judged table kept).map unjudged = kept.map unjudged := by
  rw [judged, List.map_map]
  calc kept.zipIdx.map (unjudged ∘ _)
      = (kept.zipIdx.map Prod.fst).map unjudged := by rw [List.map_map]; rfl
    _ = kept.map unjudged := by rw [List.zipIdx_map_fst]

theorem map_unjudged_contributing (sources : List (Source Float)) :
    (contributing sources).map unjudged = contributing sources := by
  rw [contributing, List.map_map]
  rfl

/-- What is asked of contributions apart from whether they count has one answer
for all notes. -/
theorem exists_mem_congr {first second : List (Source Float)} {asked : Source Float → Prop}
    (same : first.map unjudged = second.map unjudged)
    (ignores : ∀ source, asked (unjudged source) ↔ asked source) :
    (∃ source ∈ first, asked source) ↔ ∃ source ∈ second, asked source := by
  have forget : ∀ list : List (Source Float),
      (∃ source ∈ list, asked source) ↔ ∃ source ∈ list.map unjudged, asked source := by
    intro list
    simp only [List.mem_map, exists_exists_and_eq_and, ignores]
  rw [forget first, forget second, same]

theorem replaced_congr {first second : List (Source Float)}
    (same : first.map unjudged = second.map unjudged) :
    Replaced first source ↔ Replaced second source :=
  and_congr_right fun _ => exists_mem_congr same fun _ => Iff.rfl

theorem countsAs_congr {first second : List (Source Float)}
    (same : first.map unjudged = second.map unjudged) :
    CountsAs first type source ↔ CountsAs second type source := by
  unfold CountsAs
  rw [replaced_congr same]

theorem countsAs_judged : CountsAs (judged table kept) type source ↔ CountsAs kept type source :=
  countsAs_congr map_unjudged_judged

theorem relevant_of_addsUp (defined : ∀ source ∈ kept, source.amount.isNaN = false)
    (adds : table.addsUp type = true) (member : source ∈ judged table kept)
    (countsAs : CountsAs kept type source) : source.relevant = true := by
  rcases List.mem_map.mp member with ⟨entry, place, rfl⟩
  have inType : entry ∈ members kept type := mem_members.mpr ⟨place, countsAs⟩
  refine (isNoted_iff defined inType).mpr ?_
  rwa [counted_of_addsUp adds]

/-- The first of the highest counts, and nothing else of its type. -/
theorem exists_isFirstHighest (defined : ∀ source ∈ kept, source.amount.isNaN = false)
    (single : table.addsUp type = false) (member : source ∈ judged table kept)
    (countsAs : CountsAs kept type source) :
    ∃ before best after, IsFirstHighest (judged table kept) type before best after := by
  rcases List.mem_map.mp member with ⟨entry, place, rfl⟩
  have present : members kept type ≠ [] :=
    List.ne_nil_of_mem (mem_members.mpr ⟨place, countsAs⟩)
  rcases exists_counted single defined present with ⟨before, best, after, split, only, lower, atMost⟩
  -- The split of the type's members is a split of all contributions.
  rcases exists_split_of_filter split with ⟨early, late, whole, rfl, rfl⟩
  have distinct := List.nodup_append.mp (whole ▸ (List.nodup_zipIdx_map_snd kept).of_map)
  have onlyBest : ∀ other ∈ kept.zipIdx, CountsAs kept type other.1 → other ≠ best →
      isNoted table kept other = false := by
    intro other place isType different
    rw [← Bool.not_eq_true, isNoted_iff defined (mem_members.mpr ⟨place, isType⟩), only,
      List.mem_singleton]
    exact different
  have bestMember : best ∈ members kept type := by
    rw [split]
    exact List.mem_append_right _ List.mem_cons_self
  refine ⟨_, _, _, ⟨by rw [judged, whole, List.map_append, List.map_cons], ?_, ?_, ?_, ?_⟩⟩
  · exact countsAs_judged.mpr (mem_members.mp bestMember).2
  · refine (isNoted_iff defined bestMember).mpr ?_
    rw [only]
    exact List.mem_cons_self
  · intro source earlier isType
    rcases List.mem_map.mp earlier with ⟨other, place, rfl⟩
    rw [countsAs_judged] at isType
    refine ⟨lower other (List.mem_filter.mpr ⟨place, ?_⟩), onlyBest other ?_ isType ?_⟩
    · exact beq_iff_eq.mpr (effectiveType?_eq_some_iff.mpr isType)
    · exact whole ▸ List.mem_append_left _ place
    · exact distinct.2.2 other place best List.mem_cons_self
  · intro source later isType
    rcases List.mem_map.mp later with ⟨other, place, rfl⟩
    rw [countsAs_judged] at isType
    refine ⟨atMost other (List.mem_filter.mpr ⟨place, ?_⟩), onlyBest other ?_ isType ?_⟩
    · exact beq_iff_eq.mpr (effectiveType?_eq_some_iff.mpr isType)
    · exact whole ▸ List.mem_append_right _ (List.mem_cons_of_mem _ place)
    · exact fun same => (List.nodup_cons.mp distinct.2.1).1 (same ▸ place)

/-- Leaving out of a type what is not noted leaves what counts. -/
theorem filter_noted_members (defined : ∀ source ∈ kept, source.amount.isNaN = false) :
    (members kept type).filter (isNoted table kept) =
      counted table type (members kept type) := by
  cases adds : table.addsUp type with
  | true =>
    rw [counted_of_addsUp adds, List.filter_eq_self]
    intro entry member
    rwa [isNoted_iff defined member, counted_of_addsUp adds]
  | false =>
    by_cases present : members kept type = []
    · rw [present, counted, if_neg (by rw [adds]; decide)]
      rfl
    rcases exists_counted adds defined present with ⟨before, best, after, split, only, -⟩
    have nodup : (members kept type).Nodup := (List.nodup_zipIdx_map_snd kept).of_map.filter _
    rw [split] at nodup
    have distinct := List.nodup_append.mp nodup
    have noted : ∀ entry ∈ members kept type,
        isNoted table kept entry = true ↔ entry = best := by
      intro entry member
      rw [isNoted_iff defined member, only, List.mem_singleton]
    rw [only]
    rw [split] at noted ⊢
    have noneBefore : before.filter (isNoted table kept) = [] := by
      refine List.filter_eq_nil_iff.mpr fun entry member isNoted => ?_
      exact distinct.2.2 entry member best List.mem_cons_self
        ((noted entry (List.mem_append_left _ member)).mp isNoted)
    have noneAfter : after.filter (isNoted table kept) = [] := by
      refine List.filter_eq_nil_iff.mpr fun entry member isNoted => ?_
      have same := (noted entry (List.mem_append_right _ (List.mem_cons_of_mem _ member))).mp isNoted
      exact (List.nodup_cons.mp distinct.2.1).1 (same ▸ member)
    have bestNoted := (noted best (List.mem_append_right _ List.mem_cons_self)).mpr rfl
    rw [List.filter_append, noneBefore, List.nil_append, List.filter_cons_of_pos bestNoted,
      noneAfter]

/-- The amounts of a type that count are those at the noted places. -/
theorem relevantAmounts_judged (defined : ∀ source ∈ kept, source.amount.isNaN = false) :
    relevantAmounts (judged table kept) type =
      (counted table type (members kept type)).map (·.1.amount) := by
  have chosen : ∀ entry : Source Float × Nat,
      decide (CountsAs (judged table kept) type entry.1) =
        (effectiveType? (kept.any replaces) entry.1 == some type) := by
    intro entry
    rw [Bool.eq_iff_iff, decide_eq_true_iff, countsAs_judged, beq_iff_eq,
      effectiveType?_eq_some_iff]
  rw [← filter_noted_members defined, members, ofType, List.filter_filter, relevantAmounts]
  conv_lhs => arg 2; rw [judged]
  rw [List.filter_map, List.map_map]
  refine congrArg (List.map _) (List.filter_congr fun entry _ => ?_)
  exact congrArg (_ && ·) (chosen entry)

theorem defined_of_mem_contributing (member : source ∈ contributing sources) :
    source.amount.isNaN = false := by
  rcases List.mem_map.mp member with ⟨original, passes, rfl⟩
  have contributes := (List.mem_filter.mp passes).2
  exact Bool.not_eq_true' _ ▸ (Bool.and_eq_true_iff.mp contributes).2

theorem mem_types : type ∈ types kept ↔ ∃ source ∈ kept, CountsAs kept type source := by
  rw [mem_types_iff]
  simp only [effectiveType?_eq_some_iff]

/-- What is noted about contributions does not change where a type first comes
up. -/
theorem findIdx_judged :
    (judged table kept).findIdx (CountsAs (judged table kept) type ·) =
      kept.findIdx (effectiveType? (kept.any replaces) · == some type) := by
  have sameType : (fun source => decide (CountsAs (judged table kept) type source)) =
      (effectiveType? (kept.any replaces) · == some type) ∘ unjudged := by
    funext source
    rw [Bool.eq_iff_iff, decide_eq_true_iff, countsAs_judged, ← effectiveType?_eq_some_iff]
    exact beq_iff_eq.symm
  rw [sameType, ← List.findIdx_map, map_unjudged_judged, List.findIdx_map]
  rfl

theorem inOrderOfAppearance_types : InOrderOfAppearance (judged table kept) (types kept) := by
  constructor
  · intro type
    simp only [countsAs_judged]
    rw [mem_types]
    exact exists_mem_congr map_unjudged_judged.symm fun _ => Iff.rfl
  · simp only [findIdx_judged]
    exact pairwise_firstOccurrences _ kept

/-- The reduction finds out exactly what it is documented to. -/
theorem reduces_ofSources (table : BonusTable) (sources : List (Source Float)) :
    Reduces table sources (ofSources table sources) := by
  have defined : ∀ source ∈ contributing sources, source.amount.isNaN = false :=
    fun source => defined_of_mem_contributing
  have result : (ofSources table sources).sources = judged table (contributing sources) := rfl
  constructor
  · rw [result, map_unjudged_judged, contributing, List.map_map]
    rfl
  · intro type adds source member countsAs
    exact relevant_of_addsUp defined adds member (countsAs_judged.mp countsAs)
  · rintro type single ⟨source, member, countsAs⟩
    exact exists_isFirstHighest defined single member (countsAs_judged.mp countsAs)
  · intro source member replaced
    rw [result] at member replaced
    rw [replaced_congr map_unjudged_judged] at replaced
    rcases List.mem_map.mp member with ⟨entry, place, rfl⟩
    exact isNoted_of_replaced defined place replaced
  · refine ⟨types (contributing sources), inOrderOfAppearance_types, ?_⟩
    have amounts : relevantAmounts (judged table (contributing sources)) = fun type =>
        (counted table type (members (contributing sources) type)).map (·.1.amount) :=
      funext fun type => relevantAmounts_judged defined
    rw [result, amounts, ← List.map_flatMap, List.foldl_map]
    rfl

end Breakdown
end CharacterSheet
