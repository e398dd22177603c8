import CharacterSheet.Proofs.Bonus.Stacking

/-!
# Bonus types are reduced apart from each other

Whether a contribution counts can be told without the places that the reduction
notes: it depends on those contributions of its type that come before it, and
on those that come after it.  These notes determine the breakdown, and leaving
out other types changes none of them.  Base values and their replacements are
reduced together, so they have to be kept or left out together.
-/

namespace CharacterSheet
namespace Breakdown

variable {table : BonusTable} {sources kept : List (Source Float)} {type : String}
  {source : Source Float}

/-- A contribution counts among those before and after it if its type adds up,
or else if it is higher than those of its type before it and at least as high as
those after it. -/
def CountsBetween (table : BonusTable) (before : List (Source Float)) (source : Source Float)
    (after : List (Source Float)) : Prop :=
  ∃ type, CountsAs (before ++ source :: after) type source ∧
    (table.addsUp type = true ∨
      (∀ other ∈ before, CountsAs (before ++ source :: after) type other →
        other.amount < source.amount) ∧
      ∀ other ∈ after, CountsAs (before ++ source :: after) type other →
        other.amount ≤ source.amount)

/-- Every note on a contribution says whether it counts. -/
def NotesWhatCounts (table : BonusTable) (sources : List (Source Float)) : Prop :=
  ∀ before source after, sources = before ++ source :: after →
    (source.relevant = true ↔ CountsBetween table before source after)

/-! ## The notes of the reduction -/

theorem defined_of_mem_judged (defined : ∀ source ∈ kept, source.amount.isNaN = false)
    (member : source ∈ judged table kept) : source.amount.isNaN = false := by
  rcases List.mem_map.mp member with ⟨entry, place, rfl⟩
  exact defined entry.1 (List.fst_mem_of_mem_zipIdx place)

/-- Of a type that does not add up, the note is on the contribution that is
higher than those before it and at least as high as those after it. -/
theorem relevant_iff_of_single (defined : ∀ source ∈ kept, source.amount.isNaN = false)
    (single : table.addsUp type = false) {before after : List (Source Float)}
    (split : judged table kept = before ++ source :: after)
    (countsAs : CountsAs (judged table kept) type source) :
    source.relevant = true ↔
      (∀ other ∈ before, CountsAs (judged table kept) type other →
        other.amount < source.amount) ∧
      ∀ other ∈ after, CountsAs (judged table kept) type other →
        other.amount ≤ source.amount := by
  have member : source ∈ judged table kept := split ▸ List.mem_append_cons_self
  rcases exists_isFirstHighest defined single member (countsAs_judged.mp countsAs) with
    ⟨early, best, late, highest⟩
  have bestMember : best ∈ judged table kept := highest.split ▸ List.mem_append_cons_self
  have lower_or_atMost : ∀ first ∈ judged table kept, ∀ second ∈ judged table kept,
      first.amount < second.amount → ¬ second.amount ≤ first.amount :=
    fun first isFirst second isSecond => (Numeric.not_le_iff_lt
      (defined_of_mem_judged defined isSecond) (defined_of_mem_judged defined isFirst)).mpr
  rcases split_trichotomy (split.symm.trans highest.split) with
    ⟨between, splitEarly, splitAfter⟩ | ⟨rfl, rfl, rfl⟩ | ⟨between, splitBefore, splitLate⟩
  · have lower := highest.before_lower source
      (splitEarly ▸ List.mem_append_cons_self) countsAs
    refine iff_of_false (by rw [lower.2]; exact Bool.false_ne_true) fun highestHere => ?_
    exact lower_or_atMost source member best bestMember lower.1 (highestHere.2 best
      (splitAfter ▸ List.mem_append_cons_self) highest.countsAs)
  · exact iff_of_true highest.relevant
      ⟨fun other earlier counts => (highest.before_lower other earlier counts).1,
        fun other later counts => (highest.after_atMost other later counts).1⟩
  · have atMost := highest.after_atMost source
      (splitLate ▸ List.mem_append_cons_self) countsAs
    refine iff_of_false (by rw [atMost.2]; exact Bool.false_ne_true) fun highestHere => ?_
    exact lower_or_atMost best bestMember source member (highestHere.1 best
      (splitBefore ▸ List.mem_append_cons_self) highest.countsAs) atMost.1

/-- The reduction notes what counts. -/
theorem notesWhatCounts_judged (defined : ∀ source ∈ kept, source.amount.isNaN = false) :
    NotesWhatCounts table (judged table kept) := by
  intro before source after split
  have member : source ∈ judged table kept := split ▸ List.mem_append_cons_self
  rw [CountsBetween, ← split]
  cases reducedAs : effectiveType? ((judged table kept).any replaces) source with
  | none =>
    have replaced := effectiveType?_eq_none_iff.mp reducedAs
    have unnoted : source.relevant = false := by
      rcases List.mem_map.mp member with ⟨entry, place, rfl⟩
      exact isNoted_of_replaced defined place ((replaced_congr map_unjudged_judged).mp replaced)
    refine iff_of_false (by rw [unnoted]; exact Bool.false_ne_true) ?_
    rintro ⟨type, countsAs, -⟩
    exact not_countsAs_of_replaced replaced countsAs
  | some type =>
    have countsAs := effectiveType?_eq_some_iff.mp reducedAs
    have only : ∀ other, CountsAs (judged table kept) other source → other = type :=
      fun _ counts => countsAs_unique counts countsAs
    cases adds : table.addsUp type with
    | true =>
      exact iff_of_true (relevant_of_addsUp defined adds member (countsAs_judged.mp countsAs))
        ⟨type, countsAs, Or.inl adds⟩
    | false =>
      rw [relevant_iff_of_single defined adds split countsAs]
      constructor
      · exact fun highest => ⟨type, countsAs, Or.inr highest⟩
      · rintro ⟨other, counts, adding | highest⟩
        · rw [only other counts, adds] at adding
          cases adding
        · exact only other counts ▸ highest

/-! ## The notes determine the breakdown -/

theorem forall_mem_map_unjudged {asked : Source Float → Prop}
    (ignores : ∀ source, asked (unjudged source) ↔ asked source) :
    (∀ source ∈ sources.map unjudged, asked source) ↔ ∀ source ∈ sources, asked source := by
  simp only [List.forall_mem_map, ignores]

theorem countsBetween_unjudged {before after : List (Source Float)} :
    CountsBetween table (before.map unjudged) (unjudged source) (after.map unjudged) ↔
      CountsBetween table before source after := by
  have whole : before.map unjudged ++ unjudged source :: after.map unjudged =
      (before ++ source :: after).map unjudged := by
    rw [List.map_append, List.map_cons]
  have same : ((before ++ source :: after).map unjudged).map unjudged =
      (before ++ source :: after).map unjudged := by
    rw [List.map_map]
    rfl
  unfold CountsBetween
  simp only [whole, countsAs_congr same]
  refine exists_congr fun type => and_congr Iff.rfl (or_congr Iff.rfl (and_congr ?_ ?_))
  · exact forall_mem_map_unjudged fun _ => Iff.rfl
  · exact forall_mem_map_unjudged fun _ => Iff.rfl

theorem eq_of_unjudged_eq {first second : Source Float} (same : unjudged first = unjudged second)
    (relevant : first.relevant = true ↔ second.relevant = true) : first = second := by
  cases first
  cases second
  simp only [unjudged, Source.mk.injEq, and_true] at same
  simp only [Source.mk.injEq, same, true_and]
  exact Bool.eq_iff_iff.mpr relevant

/-- What counts is noted in one way only. -/
theorem NotesWhatCounts.unique {first second : List (Source Float)}
    (notesFirst : NotesWhatCounts table first) (notesSecond : NotesWhatCounts table second)
    (same : first.map unjudged = second.map unjudged) : first = second := by
  have sameLength : first.length = second.length := by
    rw [← List.length_map unjudged, same, List.length_map]
  refine List.ext_getElem sameLength fun place insideFirst insideSecond => ?_
  have at_place : unjudged first[place] = unjudged second[place] := by
    rw [← List.getElem_map unjudged, ← List.getElem_map unjudged]
    exact List.getElem_of_eq same (by simpa using insideFirst)
  refine eq_of_unjudged_eq at_place ?_
  rw [notesFirst (first.take place) first[place] (first.drop (place + 1)) (by simp),
    notesSecond (second.take place) second[place] (second.drop (place + 1)) (by simp),
    ← countsBetween_unjudged, at_place, List.map_take, List.map_drop, same, ← List.map_take,
    ← List.map_drop, countsBetween_unjudged]

/-! ## Leaving out types -/

/-- The contributions of some types. -/
def ofTypes (keeps : String → Bool) (sources : List (Source Float)) : List (Source Float) :=
  sources.filter fun source => keeps source.type

/-- The type of a contribution does not depend on its note. -/
theorem map_unjudged_ofTypes (keeps : String → Bool) (sources : List (Source Float)) :
    (ofTypes keeps sources).map unjudged = ofTypes keeps (sources.map unjudged) := by
  rw [ofTypes, ofTypes, List.filter_map]
  rfl

theorem contributing_ofTypes (keeps : String → Bool) (sources : List (Source Float)) :
    contributing (ofTypes keeps sources) = ofTypes keeps (contributing sources) := by
  rw [contributing, ofTypes, List.filter_comm]
  exact map_unjudged_ofTypes keeps _

section Restricting

variable {keeps : String → Bool} (together : keeps BonusType.base = keeps BonusType.replacement)

include together

/-- Contributions that are kept are replaced as they are among all. -/
theorem replaced_ofTypes (kept : keeps source.type = true) :
    Replaced (ofTypes keeps sources) source ↔ Replaced sources source := by
  refine and_congr_right fun isBase => exists_congr fun other => ?_
  rw [ofTypes, List.mem_filter, and_assoc]
  refine and_congr_right fun _ => and_iff_right_of_imp fun isReplacement => ?_
  rw [isReplacement, ← together, ← isBase]
  exact kept

theorem countsAs_ofTypes (kept : keeps source.type = true) :
    CountsAs (ofTypes keeps sources) type source ↔ CountsAs sources type source := by
  rw [CountsAs, CountsAs, replaced_ofTypes together kept]

/-- What counts as one type is kept or left out as a whole. -/
theorem keeps_of_countsAs (countsAs : CountsAs sources type source) :
    keeps source.type = keeps type := by
  rcases countsAs with ⟨isReplacement, isBase⟩ | ⟨-, same, -⟩
  · rw [isReplacement, isBase, together]
  · rw [same]

theorem countsBetween_ofTypes {before after : List (Source Float)}
    (kept : keeps source.type = true) :
    CountsBetween table (ofTypes keeps before) source (ofTypes keeps after) ↔
      CountsBetween table before source after := by
  have whole : ofTypes keeps before ++ source :: ofTypes keeps after =
      ofTypes keeps (before ++ source :: after) := by
    rw [ofTypes, ofTypes, ofTypes, List.filter_append, List.filter_cons, if_pos kept]
  unfold CountsBetween
  rw [whole]
  refine exists_congr fun type => ?_
  rw [countsAs_ofTypes together kept]
  refine and_congr_right fun countsAs => or_congr Iff.rfl ?_
  have keepsType : keeps type = true := (keeps_of_countsAs together countsAs).symm.trans kept
  -- All contributions that the bound is about are kept.
  have others : ∀ (part : List (Source Float)) (bound : Source Float → Prop),
      (∀ other ∈ ofTypes keeps part,
        CountsAs (ofTypes keeps (before ++ source :: after)) type other → bound other) ↔
      ∀ other ∈ part, CountsAs (before ++ source :: after) type other → bound other := by
    intro part bound
    constructor
    · intro bounded other member sameType
      have otherKept := (keeps_of_countsAs together sameType).trans keepsType
      exact bounded other (List.mem_filter.mpr ⟨member, otherKept⟩)
        ((countsAs_ofTypes together otherKept).mpr sameType)
    · intro bounded other member sameType
      rcases List.mem_filter.mp member with ⟨listed, otherKept⟩
      exact bounded other listed ((countsAs_ofTypes together otherKept).mp sameType)
  exact and_congr (others before _) (others after _)

/-- Leaving out types leaves the notes on all others right. -/
theorem NotesWhatCounts.ofTypes (notes : NotesWhatCounts table sources) :
    NotesWhatCounts table (ofTypes keeps sources) := by
  intro before source after split
  have kept : keeps source.type = true := by
    have member : source ∈ Breakdown.ofTypes keeps sources := split ▸ List.mem_append_cons_self
    exact (List.mem_filter.mp member).2
  rcases exists_split_of_filter split with ⟨early, late, whole, rfl, rfl⟩
  rw [notes early source late whole]
  exact (countsBetween_ofTypes together kept).symm

/-- Reducing the contributions of some types gives that part of the breakdown
which has these types. -/
theorem sources_ofSources_ofTypes :
    (ofSources table (ofTypes keeps sources)).sources =
      ofTypes keeps (ofSources table sources).sources := by
  have notes : ∀ given : List (Source Float),
      NotesWhatCounts table (ofSources table given).sources :=
    fun _ => notesWhatCounts_judged fun _ => defined_of_mem_contributing
  have unnoted : ∀ given : List (Source Float),
      (ofSources table given).sources.map unjudged = (contributing given).map unjudged :=
    fun _ => map_unjudged_judged
  refine (notes _).unique ((notes sources).ofTypes together) ?_
  rw [unnoted, contributing_ofTypes, map_unjudged_ofTypes, map_unjudged_ofTypes, unnoted]

end Restricting

end Breakdown
end CharacterSheet
