import CharacterSheet.Proofs.Bonus.Amounts

/-!
# The same contribution twice

Of a type that does not add up only the highest contribution counts, and ties
go to the first.  So a contribution that is made once more is never the one that
counts, nor does it change which one does.  It comes last in the breakdown,
noted as not counting, and everything before it stays as it is.
-/

namespace CharacterSheet
namespace Breakdown

variable {table : BonusTable} {type : String}

section Types

variable {α : Type} {kept : List (Source α)} {source : Source α}

theorem any_replaces_concat (member : source ∈ kept) :
    (kept ++ [source]).any replaces = kept.any replaces := by
  rw [List.any_append, List.any_cons, List.any_nil, Bool.or_false, Bool.or_eq_left_iff_imp]
  exact fun replacement => List.any_eq_true.mpr ⟨source, member, replacement⟩

/-- A copy is of a type that has come up already. -/
theorem types_concat (member : source ∈ kept) :
    types (kept ++ [source]) = types kept := by
  unfold types
  rw [any_replaces_concat member, List.filterMap_append]
  cases effective : effectiveType? (kept.any replaces) source with
  | none => rw [List.filterMap_cons_none effective, List.filterMap_nil, List.append_nil]
  | some type =>
    rw [List.filterMap_cons_some effective, List.filterMap_nil]
    exact firstOccurrences_concat_of_mem (List.mem_filterMap.mpr ⟨source, member, effective⟩)

theorem ofType_concat (member : source ∈ kept) :
    ofType ((kept ++ [source]).any replaces) type (kept ++ [source]).zipIdx =
      ofType (kept.any replaces) type kept.zipIdx ++
        if effectiveType? (kept.any replaces) source = some type then [(source, kept.length)]
        else [] := by
  rw [any_replaces_concat member, List.zipIdx_append, ofType, List.filter_append]
  simp [ofType, List.filter_cons]

end Types

variable {α : Type} [Amount α] {sources kept : List (Source α)} {source : Source α}

/-- A copy of a contribution stands at a place where nothing counted before. -/
theorem not_counts_at_length :
    ((allCounted table kept).map Prod.snd).contains kept.length = false := by
  rw [← Bool.not_eq_true, List.contains_iff_mem, List.mem_map]
  rintro ⟨entry, counts, place⟩
  have inside := List.snd_lt_of_mem_zipIdx (mem_zipIdx_of_mem_allCounted counts)
  omega

section Ranked

variable {ρ : Type} [LinearOrder ρ] [ranked : RankedAmount α ρ]

include ranked

/-- Of a type that does not add up, a copy of a contribution does not count. -/
theorem counted_concat {entries : List (Source α × Nat)} {copied : Source α × Nat}
    (contribute : ∀ entry ∈ entries, Amount.contributes entry.1.amount = true)
    (single : table.addsUp type = false) (member : copied ∈ entries) (place : Nat) :
    counted table type (entries ++ [(copied.1, place)]) = counted table type entries := by
  rcases exists_highest? (fun first isFirst second isSecond => RankedAmount.atMost_iff_rank
    (contribute first isFirst) (contribute second isSecond)) (List.ne_nil_of_mem member)
    with ⟨before, best, after, rfl, known, lower, atMost⟩
  have notHigher : Amount.atMost copied.1.amount best.1.amount = true := by
    refine (RankedAmount.atMost_iff_rank (contribute copied member)
      (contribute best List.mem_append_cons_self)).mpr ?_
    rcases List.mem_append.mp member with early | late
    · exact (lower copied early).le
    · rcases List.mem_cons.mp late with rfl | late
      · exact le_rfl
      · exact atMost copied late
  have same : highest? (·.1.amount) (before ++ best :: after ++ [(copied.1, place)]) =
      some best :=
    (highest?_concat known).trans (if_pos notHigher)
  rw [counted, counted, if_neg (by rw [single]; decide), if_neg (by rw [single]; decide),
    firstHighest?_eq, firstHighest?_eq, known, same]

theorem allCounted_concat
    (contribute : ∀ source ∈ kept, Amount.contributes source.amount = true)
    (member : source ∈ kept) (single : table.addsUp (reducedType source) = false) :
    allCounted table (kept ++ [source]) = allCounted table kept := by
  rw [allCounted_eq, allCounted_eq, types_concat member]
  refine List.flatMap_congr fun type _ => ?_
  rw [ofType_concat member]
  split
  · next effective =>
    rw [reducedType_of_effectiveType? effective] at single
    rcases List.mem_iff_getElem.mp member with ⟨place, inside, rfl⟩
    have among : (kept[place], place) ∈ ofType (kept.any replaces) type kept.zipIdx :=
      mem_ofType.mpr ⟨List.mk_mem_zipIdx_iff_getElem?.mpr (List.getElem?_eq_getElem inside),
        effective⟩
    exact counted_concat (fun entry listed => contribute entry.1
      (List.fst_mem_of_mem_zipIdx (mem_ofType.mp listed).1)) single among kept.length
  · rw [List.append_nil]

theorem ofSources_concat_contributing (member : source ∈ sources)
    (single : table.addsUp (reducedType source) = false) :
    ofSources table (sources ++ [source]) =
      ⟨(ofSources table sources).total,
        (ofSources table sources).sources ++ contributing [source]⟩ := by
  by_cases contributes : Amount.contributes source.amount = true
  · have copy : contributing [source] = [{ source with relevant := false }] := by
      rw [contributing, List.filter_cons, if_pos contributes]
      rfl
    have kept : { source with relevant := false } ∈ contributing sources :=
      List.mem_map_of_mem (List.mem_filter.mpr ⟨member, contributes⟩)
    have counting : allCounted table (contributing (sources ++ [source])) =
        allCounted table (contributing sources) := by
      rw [contributing_append, copy]
      exact allCounted_concat (fun _ => contributes_of_mem_contributing) kept single
    unfold ofSources
    dsimp only
    rw [counting, contributing_append, copy, List.zipIdx_append, List.map_append,
      List.zipIdx_singleton, List.map_singleton, Nat.zero_add, not_counts_at_length]
  · have dropped : contributing [source] = [] := by
      rw [contributing, List.filter_cons, if_neg contributes]
      rfl
    rw [dropped, List.append_nil, ofSources, ofSources, contributing_append, dropped,
      List.append_nil]

end Ranked

/-- A second copy of a contribution whose type does not add up changes neither
the total nor the notes on what is listed before it.  The copy comes last and
does not count, or is dropped if it is zero or undefined. -/
theorem ofSources_concat_copy (table : BonusTable) {sources : List (Source Float)}
    {source : Source Float} (member : source ∈ sources)
    (single : table.addsUp (reducedType source) = false) :
    (ofSources table (sources ++ [source])).total = (ofSources table sources).total ∧
      (ofSources table (sources ++ [source])).sources = (ofSources table sources).sources ++
        if source.amount == 0 || source.amount.isNaN then []
        else [{ source with relevant := false }] := by
  rw [ofSources_concat_contributing member single]
  refine ⟨rfl, congrArg (_ ++ ·) ?_⟩
  have dropped : (!Amount.contributes source.amount) =
      (source.amount == 0 || source.amount.isNaN) := by
    rw [← Bool.not_not (source.amount == 0 || source.amount.isNaN), Bool.not_or]
    rfl
  rw [← dropped, contributing, List.filter_cons]
  cases Amount.contributes source.amount <;> rfl

/-- A base value and two enhancements of the same height. -/
def enhanced : List (Source Float) :=
  [.base 10 "Base", .of 4 BonusType.enhancement "Belt" "belt",
    .of 4 BonusType.enhancement "Spell" "spell"]

theorem ofSources_concat_copy_spell :
    .of 4 BonusType.enhancement "Spell" "spell" ∈ enhanced ∧
      BonusTable.default.addsUp
        (reducedType (.of (4 : Float) BonusType.enhancement "Spell" "spell")) = false ∧
      (ofSources .default (enhanced ++ [.of 4 BonusType.enhancement "Spell" "spell"])).total =
        (ofSources .default enhanced).total :=
  have member : .of 4 BonusType.enhancement "Spell" "spell" ∈ enhanced :=
    List.mem_cons_of_mem _ (List.mem_cons_of_mem _ (List.mem_singleton_self _))
  ⟨member, by decide, (ofSources_concat_copy .default member (by decide)).1⟩

end Breakdown

end CharacterSheet
