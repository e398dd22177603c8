import CharacterSheet.Proofs.Dependency.Order

/-!
# A cycle is found if there is one

A variable is done when the search has visited it and is no longer on its way
through it.  By then all of its dependents are done as well, for one that was
still under way would have closed a circle.  So what is done is closed under
dependents, and a circle cannot run through a variable that becomes done: all
other variables of the circle would have been done before, and with them the
variable itself.  At the end of a search that met no circle every variable is
done.

Together with the search of graphs without cycles this makes sorting exact, for
every graph that is built by adding variables and dependencies.
-/

namespace CharacterSheet
namespace DependencyGraph

open Relation

/-- What holds before the first step, and is kept by every step that succeeds,
holds at the end.  It may speak of the items already taken. -/
theorem foldlM_keeps {ε σ α : Type} {step : σ → α → Except ε σ} {motive : List α → σ → Prop}
    {taken items : List α} {state final : σ} (start : motive taken state)
    (each : ∀ taken state, ∀ item ∈ items, ∀ next, motive taken state →
      step state item = .ok next → motive (taken ++ [item]) next)
    (succeeds : items.foldlM step state = .ok final) : motive (taken ++ items) final := by
  induction items generalizing taken state with
  | nil =>
    cases succeeds
    rw [List.append_nil]
    exact start
  | cons item rest inductionHypothesis =>
    rw [List.foldlM_cons] at succeeds
    cases first : step state item with
    | error problem =>
      rw [first] at succeeds
      cases succeeds
    | ok next =>
      rw [first] at succeeds
      have kept := each taken state item List.mem_cons_self next start first
      have all := inductionHypothesis kept
        (fun taken state other member => each taken state other (List.mem_cons_of_mem _ member))
        succeeds
      rw [List.append_assoc, List.singleton_append] at all
      exact all

variable {graph : DependencyGraph} {path visited : List VariableId} {id : VariableId}

/-- What is done is closed under dependents and lies on no circle.  Done are the
variables that are visited and not on the way any more. -/
structure Settled (graph : DependencyGraph) (path visited : List VariableId) : Prop where
  underWay : path ⊆ visited
  onward : ∀ done ∈ visited, done ∉ path → ∀ dependent, graph.Requires dependent done →
    dependent ∈ visited ∧ dependent ∉ path
  free : ∀ done ∈ visited, done ∉ path → ¬ TransGen graph.Requires done done

theorem settled_nil : graph.Settled [] [] where
  underWay := List.Subset.refl _
  onward _ member := absurd member List.not_mem_nil
  free _ member := absurd member List.not_mem_nil

/-- Whatever depends on a variable that is done is done. -/
theorem Settled.not_mem_path (settled : graph.Settled path visited) {done other : VariableId}
    (depends : ReflTransGen graph.Requires other done) (known : done ∈ visited)
    (offPath : done ∉ path) : other ∈ visited ∧ other ∉ path := by
  induction depends using ReflTransGen.head_induction_on with
  | refl => exact ⟨known, offPath⟩
  | head requires _ inductionHypothesis =>
    exact settled.onward _ inductionHypothesis.1 inductionHypothesis.2 _ requires

/-- Setting out for a variable that is not visited puts it on the way. -/
theorem Settled.enter (settled : graph.Settled path visited) (unvisited : id ∉ visited) :
    graph.Settled (path ++ [id]) (id :: visited) := by
  have doneBefore : ∀ done ∈ id :: visited, done ∉ path ++ [id] → done ∈ visited ∧ done ∉ path := by
    intro done known offPath
    rw [List.mem_append, List.mem_singleton, not_or] at offPath
    rcases List.mem_cons.mp known with here | before
    · exact absurd here offPath.2
    · exact ⟨before, offPath.1⟩
  constructor
  · intro other member
    rcases List.mem_append.mp member with earlier | here
    · exact List.mem_cons_of_mem _ (settled.underWay earlier)
    · rw [List.mem_singleton.mp here]
      exact List.mem_cons_self
  · intro done known offPath dependent requires
    rcases doneBefore done known offPath with ⟨before, away⟩
    rcases settled.onward done before away dependent requires with ⟨seen, free⟩
    refine ⟨List.mem_cons_of_mem _ seen, ?_⟩
    rw [List.mem_append, List.mem_singleton, not_or]
    exact ⟨free, fun same => unvisited (same ▸ seen)⟩
  · intro done known offPath
    rcases doneBefore done known offPath with ⟨before, away⟩
    exact settled.free done before away

/-- When all dependents of the variable reached are done, it is done itself. -/
theorem Settled.leave (settled : graph.Settled (path ++ [id]) visited) (offPath : id ∉ path)
    (finished : ∀ dependent, graph.Requires dependent id →
      dependent ∈ visited ∧ dependent ∉ path ++ [id]) :
    graph.Settled path visited := by
  have shorter : ∀ other, other ∉ path ++ [id] → other ∉ path :=
    fun other away onPath => away (List.mem_append_left _ onPath)
  constructor
  · exact fun other member => settled.underWay (List.mem_append_left _ member)
  · intro done known away dependent requires
    by_cases here : done = id
    · subst here
      rcases finished dependent requires with ⟨seen, free⟩
      exact ⟨seen, shorter dependent free⟩
    · have awayFromAll : done ∉ path ++ [id] := by
        rw [List.mem_append, List.mem_singleton, not_or]
        exact ⟨away, here⟩
      rcases settled.onward done known awayFromAll dependent requires with ⟨seen, free⟩
      exact ⟨seen, shorter dependent free⟩
  · intro done known away circle
    by_cases here : done = id
    · subst here
      -- The circle comes back to the variable through one of its dependents.
      rcases TransGen.tail'_iff.mp circle with ⟨dependent, depends, requires⟩
      rcases finished dependent requires with ⟨seen, free⟩
      exact (settled.not_mem_path depends seen free).2
        (List.mem_append_right _ (List.mem_singleton.mpr rfl))
    · have awayFromAll : done ∉ path ++ [id] := by
        rw [List.mem_append, List.mem_singleton, not_or]
        exact ⟨away, here⟩
      exact settled.free done known awayFromAll circle

/-- How far a search has come through some variables in turn: those it has taken
are done, and what was visited before still is. -/
structure Advances (graph : DependencyGraph) (path before taken state : List VariableId) :
    Prop where
  settled : graph.Settled path state
  includes : before ⊆ state
  finished : ∀ other ∈ taken, other ∈ state ∧ other ∉ path

section Advancing

variable {before taken state after : List VariableId} {next : VariableId}

theorem Settled.advances (settled : graph.Settled path visited) :
    graph.Advances path visited [] visited where
  settled := settled
  includes := List.Subset.refl _
  finished _ member := absurd member List.not_mem_nil

/-- A variable that is done already is passed over. -/
theorem Advances.pass (advances : graph.Advances path before taken state) (seen : next ∈ state)
    (offPath : next ∉ path) : graph.Advances path before (taken ++ [next]) state where
  settled := advances.settled
  includes := advances.includes
  finished := by
    intro other member
    rcases List.mem_append.mp member with earlier | here
    · exact advances.finished other earlier
    · rw [List.mem_singleton.mp here]
      exact ⟨seen, offPath⟩

/-- A variable is taken by a search that leaves it done. -/
theorem Advances.take (advances : graph.Advances path before taken state)
    (settled : graph.Settled path after) (grows : next :: state ⊆ after)
    (offPath : next ∉ path) : graph.Advances path before (taken ++ [next]) after := by
  have kept := (List.cons_subset.mp grows).2
  have moved : graph.Advances path before taken after :=
    { settled := settled
      includes := List.Subset.trans advances.includes kept
      finished := fun other member =>
        ⟨kept (advances.finished other member).1, (advances.finished other member).2⟩ }
  exact moved.pass (grows List.mem_cons_self) offPath

end Advancing

/-- Within the bound, a search from a variable that meets no circle leaves the
variable done, and all that was done before. -/
theorem settled_searchFrom {bound : Nat} {result : List VariableId}
    (settled : graph.Settled path visited) (unvisited : id ∉ visited) (distinct : path.Nodup)
    (declared : id :: path ⊆ graph.nodes) (enough : graph.nodes.length ≤ bound + path.length)
    (succeeds : graph.searchFrom bound path id visited = .ok result) :
    graph.Settled path result ∧ id :: visited ⊆ result := by
  induction bound generalizing path id visited result with
  | zero =>
    have offPath : id ∉ path := fun onPath => unvisited (settled.underWay onPath)
    have room := List.Nodup.length_le_of_subset (List.nodup_cons.mpr ⟨offPath, distinct⟩) declared
    rw [List.length_cons] at room
    omega
  | succ bound inductionHypothesis =>
    have offPath : id ∉ path := fun onPath => unvisited (settled.underWay onPath)
    have reordered := List.perm_append_singleton id path
    have distinctHere : (path ++ [id]).Nodup :=
      reordered.nodup_iff.mpr (List.nodup_cons.mpr ⟨offPath, distinct⟩)
    rw [searchFrom] at succeeds
    have all : graph.Advances (path ++ [id]) (id :: visited) ([] ++ (graph.dependents id).reverse)
        result := by
      refine foldlM_keeps (settled.enter unvisited).advances ?_ succeeds
      intro taken state next listed after advances stepped
      by_cases seen : next ∈ state
      · rw [if_pos seen] at stepped
        by_cases onPath : next ∈ path ++ [id]
        · rw [if_pos onPath] at stepped
          cases stepped
        · rw [if_neg onPath] at stepped
          cases stepped
          exact advances.pass seen onPath
      · rw [if_neg seen] at stepped
        have known := (mem_dependents.mp (List.mem_reverse.mp listed)).declared.1
        have declaredHere : next :: (path ++ [id]) ⊆ graph.nodes :=
          List.cons_subset.mpr ⟨known, List.Subset.trans reordered.subset declared⟩
        have room : graph.nodes.length ≤ bound + (path ++ [id]).length := by
          rw [List.length_append, List.length_singleton]
          omega
        have searched := inductionHypothesis advances.settled seen distinctHere declaredHere room
          stepped
        exact advances.take searched.1 searched.2
          fun onPath => seen (advances.settled.underWay onPath)
    refine ⟨all.settled.leave offPath ?_, all.includes⟩
    intro dependent requires
    rw [List.nil_append] at all
    exact all.finished dependent (List.mem_reverse.mpr (mem_dependents.mpr requires))

/-- A search of the whole graph that meets no circle leaves every variable
done. -/
theorem advances_search {result : List VariableId} (succeeds : graph.search = .ok result) :
    graph.Advances [] [] graph.nodes result := by
  refine foldlM_keeps settled_nil.advances ?_ succeeds
  intro taken state id known next advances stepped
  by_cases seen : id ∈ state
  · rw [if_pos seen] at stepped
    cases stepped
    exact advances.pass seen List.not_mem_nil
  · rw [if_neg seen] at stepped
    have declared : [id] ⊆ graph.nodes := List.cons_subset.mpr ⟨known, List.nil_subset _⟩
    have searched := settled_searchFrom advances.settled seen List.nodup_nil declared
      (Nat.le_add_right _ _) stepped
    exact advances.take searched.1 searched.2 List.not_mem_nil

theorem acyclic_of_search {result : List VariableId} (succeeds : graph.search = .ok result) :
    graph.Acyclic := by
  intro id circle
  have advances := advances_search succeeds
  rcases TransGen.head'_iff.mp circle with ⟨_, requires, _⟩
  have done := advances.finished id requires.declared.1
  exact advances.settled.free id done.1 done.2 circle

theorem findCycle?_eq_none_iff : graph.findCycle? = none ↔ graph.Acyclic := by
  refine ⟨?_, findCycle?_eq_none⟩
  intro nothing
  unfold findCycle? at nothing
  cases searched : graph.search with
  | ok result => exact acyclic_of_search searched
  | error cycle =>
    rw [searched] at nothing
    cases nothing

/-- Sorting succeeds exactly on graphs without cycles, and gives the listing. -/
theorem sort_eq_ok_iff {order : List VariableId} :
    graph.sort = .ok order ↔ graph.Acyclic ∧ order = graph.listing := by
  constructor
  · intro sorted
    unfold sort at sorted
    cases found : graph.findCycle? with
    | some cycle =>
      rw [found] at sorted
      cases sorted
    | none =>
      rw [found] at sorted
      cases sorted
      exact ⟨findCycle?_eq_none_iff.mp found, rfl⟩
  · rintro ⟨acyclic, rfl⟩
    exact sort_eq_listing acyclic

end DependencyGraph
end CharacterSheet
