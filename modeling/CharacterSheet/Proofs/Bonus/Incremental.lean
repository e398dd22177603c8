import CharacterSheet.Proofs.Bonus.Stacking

/-!
# Resolving between additions

Contributions may be added to a statistic in any number of rounds, and it may
be resolved after each of them, by whatever rules.  Resolving drops what
contributes nothing and notes what counts.  The reduction asks for neither: it
starts from the contributions that are not zero, without their notes, and
resolving keeps all of these in their places.  So however additions and
resolutions take turns, the statistic ends as if all contributions had been
reduced at once.
-/

namespace CharacterSheet

namespace Breakdown

variable {table : BonusTable} {sources : List (Source Float)}

theorem contributes_of_mem_judged {source : Source Float}
    (member : source ∈ judged table (contributing sources)) :
    Amount.contributes source.amount = true := by
  rcases List.mem_map.mp member with ⟨entry, place, rfl⟩
  rcases List.mem_map.mp (List.fst_mem_of_mem_zipIdx place) with ⟨original, passes, same⟩
  have contributes := (List.mem_filter.mp passes).2
  rwa [show entry.1.amount = original.amount from same ▸ rfl]

/-- A breakdown lists the contributions that it was reduced from. -/
theorem contributing_ofSources (table : BonusTable) (sources : List (Source Float)) :
    contributing (ofSources table sources).sources = contributing sources := by
  have listed : (ofSources table sources).sources = judged table (contributing sources) := rfl
  have whole : (judged table (contributing sources)).filter
      (fun source => Amount.contributes source.amount) = judged table (contributing sources) :=
    List.filter_eq_self.mpr fun source => contributes_of_mem_judged
  calc contributing (ofSources table sources).sources
      = (judged table (contributing sources)).map unjudged := by
        rw [listed, contributing, whole]
        rfl
    _ = (contributing sources).map unjudged := map_unjudged_judged
    _ = contributing sources := map_unjudged_contributing sources

/-- The reduction sees only what contributes. -/
theorem ofSources_congr {first second : List (Source Float)}
    (same : contributing first = contributing second) :
    ofSources table first = ofSources table second := by
  rw [ofSources, ofSources, same]

end Breakdown

namespace Stat

/-- What can be done to a statistic, one after the other. -/
inductive Step where
  | add (source : Source Float)
  | resolve (table : BonusTable)

variable {table : BonusTable}

def take (stat : Stat) : Step → Stat
  | .add source => stat.add source
  | .resolve table => stat.resolve table

/-- The statistic after some steps. -/
def run (stat : Stat) (steps : List Step) : Stat :=
  steps.foldl take stat

def Step.added? : Step → Option (Source Float)
  | .add source => some source
  | .resolve _ => none

/-- All contributions that are added in some steps. -/
def added (steps : List Step) : List (Source Float) :=
  steps.filterMap Step.added?

theorem ofSources_congr {first second : List (Source Float)}
    (same : Breakdown.contributing first = Breakdown.contributing second) :
    ofSources table first = ofSources table second := by
  rw [ofSources, ofSources, Breakdown.ofSources_congr same]

/-- A step adds its contribution to those that the reduction sees, if it has
one, and takes none away. -/
theorem contributing_take (stat : Stat) (step : Step) :
    Breakdown.contributing (stat.take step).sources =
      Breakdown.contributing (stat.sources ++ step.added?.toList) := by
  cases step with
  | add source => rfl
  | resolve table =>
    rw [Step.added?, Option.toList_none, List.append_nil]
    exact Breakdown.contributing_ofSources table stat.sources

/-- After any steps the reduction sees what it would see had nothing been
resolved between the additions. -/
theorem contributing_run (stat : Stat) (steps : List Step) :
    Breakdown.contributing (stat.run steps).sources =
      Breakdown.contributing (stat.sources ++ added steps) := by
  induction steps generalizing stat with
  | nil => rw [run, List.foldl_nil, added, List.filterMap_nil, List.append_nil]
  | cons step steps inductionHypothesis =>
    have addedFirst : added (step :: steps) = step.added?.toList ++ added steps := by
      cases step <;> rfl
    calc Breakdown.contributing (stat.run (step :: steps)).sources
        = Breakdown.contributing ((stat.take step).sources ++ added steps) :=
          inductionHypothesis (stat.take step)
      _ = Breakdown.contributing (stat.sources ++ step.added?.toList) ++
            Breakdown.contributing (added steps) := by
          rw [Breakdown.contributing_append, contributing_take]
      _ = Breakdown.contributing (stat.sources ++ added (step :: steps)) := by
          rw [← Breakdown.contributing_append, List.append_assoc, addedFirst]

theorem resolve_run (stat : Stat) (steps : List Step) (table : BonusTable) :
    stat.run (steps ++ [.resolve table]) = ofSources table (stat.sources ++ added steps) := by
  rw [run, List.foldl_append]
  exact ofSources_congr (contributing_run stat steps)

theorem resolve_resolve (stat : Stat) (first second : BonusTable) :
    (stat.resolve first).resolve second = stat.resolve second :=
  ofSources_congr (Breakdown.contributing_ofSources first stat.sources)

theorem map_unjudged_sources_ofSources (table : BonusTable) (sources : List (Source Float)) :
    (ofSources table sources).sources.map Breakdown.unjudged = Breakdown.contributing sources :=
  Breakdown.map_unjudged_judged.trans (Breakdown.map_unjudged_contributing sources)

/-- A statistic that is resolved last is what its contributions amount to,
whatever was resolved between the additions, and lists all of them that are not
zero in the order in which they were added.  Resolving it once more, or reducing
a breakdown anew, changes nothing. -/
theorem resolves_incrementally (table : BonusTable) :
    (∀ steps, empty.run (steps ++ [.resolve table]) = ofSources table (added steps) ∧
        (empty.run (steps ++ [.resolve table])).sources.map Breakdown.unjudged =
          Breakdown.contributing (added steps)) ∧
      (∀ stat : Stat, (stat.resolve table).resolve table = stat.resolve table) ∧
      ∀ sources : List (Source Float),
        Breakdown.ofSources table (Breakdown.ofSources table sources).sources =
          Breakdown.ofSources table sources := by
  refine ⟨?_, ?_, ?_⟩
  · intro steps
    have resolved : empty.run (steps ++ [.resolve table]) = ofSources table (added steps) :=
      resolve_run empty steps table
    exact ⟨resolved, by rw [resolved, map_unjudged_sources_ofSources]⟩
  · intro stat
    exact resolve_resolve stat table table
  · intro sources
    exact Breakdown.ofSources_congr (Breakdown.contributing_ofSources table sources)

end Stat

end CharacterSheet
