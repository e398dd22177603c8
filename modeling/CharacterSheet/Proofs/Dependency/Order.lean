import CharacterSheet.Dependency.Order
import CharacterSheet.Proofs.Dependency.Graph

/-!
# Graphs without cycles can be sorted

In a graph without cycles the search finds none, because every variable on its
way is required by the variable it has reached.  The listing is then an order
of all variables in which each stands behind everything it requires.

Two facts keep the listing going.  What is listed on the way to a variable is
required by it, so a variable is not listed before its turn.  And the variables
under way are all different, so there are fewer of them than variables in the
graph, which is the bound that the listing starts with.
-/

namespace CharacterSheet
namespace DependencyGraph

open Relation

/-- Steps that always succeed succeed one after the other. -/
theorem foldlM_succeeds {ε σ α : Type} {step : σ → α → Except ε σ} {items : List α}
    (succeeds : ∀ state, ∀ item ∈ items, ∃ next, step state item = .ok next) (state : σ) :
    ∃ final, items.foldlM step state = .ok final := by
  induction items generalizing state with
  | nil => exact ⟨state, rfl⟩
  | cons item rest inductionHypothesis =>
    rcases succeeds state item List.mem_cons_self with ⟨next, first⟩
    have later : ∀ state, ∀ item ∈ rest, ∃ next, step state item = .ok next :=
      fun state item member => succeeds state item (List.mem_cons_of_mem _ member)
    rcases inductionHypothesis later next with ⟨final, others⟩
    refine ⟨final, ?_⟩
    rw [List.foldlM_cons, first]
    exact others

variable {graph : DependencyGraph}

section Search

theorem searchFrom_succeeds (acyclic : graph.Acyclic) (bound : Nat) {path : List VariableId}
    {id : VariableId} (requiresAll : ∀ before ∈ path, TransGen graph.Requires id before)
    (visited : List VariableId) :
    ∃ result, graph.searchFrom bound path id visited = .ok result := by
  induction bound generalizing path id visited with
  | zero => exact ⟨visited, rfl⟩
  | succ bound inductionHypothesis =>
    rw [searchFrom]
    apply foldlM_succeeds
    intro state next listed
    have requires := mem_dependents.mp (List.mem_reverse.mp listed)
    have nextRequiresAll : ∀ before ∈ path ++ [id], TransGen graph.Requires next before := by
      intro before member
      rcases List.mem_append.mp member with earlier | here
      · exact TransGen.head requires (requiresAll before earlier)
      · rw [List.mem_singleton.mp here]
        exact TransGen.single requires
    by_cases seen : next ∈ state
    · have offPath : next ∉ path ++ [id] :=
        fun onPath => acyclic next (nextRequiresAll next onPath)
      exact ⟨state, by rw [if_pos seen, if_neg offPath]⟩
    · rcases inductionHypothesis nextRequiresAll state with ⟨result, found⟩
      exact ⟨result, by rw [if_neg seen, found]⟩

/-- No cycle is reported that is not there. -/
theorem findCycle?_eq_none (acyclic : graph.Acyclic) : graph.findCycle? = none := by
  have searched : ∃ result, graph.search = .ok result := by
    apply foldlM_succeeds
    intro state id _
    by_cases seen : id ∈ state
    · exact ⟨state, by rw [if_pos seen]⟩
    · rcases searchFrom_succeeds acyclic graph.nodes.length
        (fun _ member => absurd member List.not_mem_nil) state with ⟨result, found⟩
      exact ⟨result, by rw [if_neg seen, found]⟩
  rcases searched with ⟨result, found⟩
  rw [findCycle?, found]

end Search

/-- No variable is listed twice, and each stands behind what it requires. -/
structure Ordered (graph : DependencyGraph) (listed : List VariableId) : Prop where
  distinct : listed.Nodup
  behind : ∀ before id after, listed = before ++ id :: after →
    ∀ requirement, graph.Requires id requirement → requirement ∈ before

theorem ordered_nil : graph.Ordered [] where
  distinct := List.nodup_nil
  behind before id after split := by
    have impossible := congrArg List.length split
    simp at impossible

/-- A variable can be listed when everything it requires is. -/
theorem Ordered.snoc {listed : List VariableId} {id : VariableId} (ordered : graph.Ordered listed)
    (unlisted : id ∉ listed)
    (ready : ∀ requirement, graph.Requires id requirement → requirement ∈ listed) :
    graph.Ordered (listed ++ [id]) where
  distinct := by
    rw [(List.perm_append_singleton id listed).nodup_iff]
    exact List.nodup_cons.mpr ⟨unlisted, ordered.distinct⟩
  behind before other after split requirement requires := by
    rcases List.eq_nil_or_concat after with rfl | ⟨more, last, rfl⟩
    · rcases List.append_inj' split rfl with ⟨rfl, same⟩
      cases same
      exact ready requirement requires
    · have shape : listed ++ [id] = (before ++ other :: more) ++ [last] := by
        rw [split, List.concat_eq_append, List.append_assoc, List.cons_append]
      rcases List.append_inj' shape rfl with ⟨front, _⟩
      exact ordered.behind before other more front requirement requires

/-- Listing some variables behind a list keeps what is listed and adds these
variables and others that they require. -/
structure Extends (graph : DependencyGraph) (roots listed result : List VariableId) : Prop where
  ordered : graph.Ordered result
  kept : listed ⊆ result
  added : roots ⊆ result
  reached : ∀ id ∈ result, id ∈ listed ∨ ∃ root ∈ roots, ReflTransGen graph.Requires root id

/-- Listing variables one after the other. -/
theorem Extends.foldl {visit : List VariableId → VariableId → List VariableId}
    {roots : List VariableId}
    (each : ∀ root ∈ roots, ∀ listed, graph.Ordered listed →
      graph.Extends [root] listed (visit listed root))
    {listed : List VariableId} (ordered : graph.Ordered listed) :
    graph.Extends roots listed (roots.foldl visit listed) := by
  induction roots generalizing listed with
  | nil =>
    exact
      { ordered := ordered
        kept := List.Subset.refl _
        added := List.nil_subset _
        reached := fun id member => Or.inl member }
  | cons root rest inductionHypothesis =>
    have first := each root List.mem_cons_self listed ordered
    have others := inductionHypothesis
      (fun other member => each other (List.mem_cons_of_mem _ member)) first.ordered
    exact
      { ordered := others.ordered
        kept := List.Subset.trans first.kept others.kept
        added := List.cons_subset.mpr ⟨others.kept (first.added List.mem_cons_self), others.added⟩
        reached := by
          intro id member
          rcases others.reached id member with early | ⟨other, listedOther, chain⟩
          · rcases first.reached id early with old | ⟨same, here, chain⟩
            · exact Or.inl old
            · rw [List.mem_singleton.mp here] at chain
              exact Or.inr ⟨root, List.mem_cons_self, chain⟩
          · exact Or.inr ⟨other, List.mem_cons_of_mem _ listedOther, chain⟩ }

/-- The variables under way to another one: different from each other, and all
of them depend on it. -/
structure Way (graph : DependencyGraph) (path : List VariableId) (id : VariableId) : Prop where
  declared : path ⊆ graph.nodes
  distinct : path.Nodup
  leads : ∀ before ∈ path, TransGen graph.Requires before id

section Listing

variable {path : List VariableId} {id next : VariableId}

theorem way_nil : graph.Way [] id where
  declared := List.nil_subset _
  distinct := List.nodup_nil
  leads _ member := absurd member List.not_mem_nil

/-- In a graph without cycles the variable reached is not under way yet. -/
theorem Way.distinct_cons (way : graph.Way path id) (acyclic : graph.Acyclic) :
    (id :: path).Nodup :=
  List.nodup_cons.mpr ⟨fun onPath => acyclic id (way.leads id onPath), way.distinct⟩

theorem Way.length_lt (way : graph.Way path id) (acyclic : graph.Acyclic)
    (known : id ∈ graph.nodes) : path.length < graph.nodes.length := by
  have inside : id :: path ⊆ graph.nodes := List.cons_subset.mpr ⟨known, way.declared⟩
  exact List.Nodup.length_le_of_subset (way.distinct_cons acyclic) inside

theorem Way.step (way : graph.Way path id) (acyclic : graph.Acyclic)
    (requires : graph.Requires id next) : graph.Way (id :: path) next where
  declared := List.cons_subset.mpr ⟨requires.declared.1, way.declared⟩
  distinct := way.distinct_cons acyclic
  leads before member := by
    rcases List.mem_cons.mp member with rfl | earlier
    · exact TransGen.single requires
    · exact TransGen.tail (way.leads before earlier) requires

/-- Within the bound, listing a variable lists it behind what it requires. -/
theorem extends_listBehindRequirements (acyclic : graph.Acyclic) {bound : Nat}
    (way : graph.Way path id) (known : id ∈ graph.nodes)
    (enough : graph.nodes.length ≤ bound + path.length) {listed : List VariableId}
    (ordered : graph.Ordered listed) :
    graph.Extends [id] listed (graph.listBehindRequirements bound listed id) := by
  induction bound generalizing path id listed with
  | zero =>
    have room := way.length_lt acyclic known
    omega
  | succ bound inductionHypothesis =>
    rw [listBehindRequirements]
    by_cases done : id ∈ listed
    · rw [if_pos done]
      exact
        { ordered := ordered
          kept := List.Subset.refl _
          added := List.cons_subset.mpr ⟨done, List.nil_subset _⟩
          reached := fun other member => Or.inl member }
    · rw [if_neg done]
      have inner : graph.Extends (graph.requirements id) listed
          ((graph.requirements id).foldl (graph.listBehindRequirements bound) listed) := by
        apply Extends.foldl _ ordered
        intro requirement wanted listed ordered
        have requires := mem_requirements.mp wanted
        have room : graph.nodes.length ≤ bound + (id :: path).length := by
          rw [List.length_cons]
          omega
        exact inductionHypothesis (way.step acyclic requires) requires.declared.2 room ordered
      have unlisted : id ∉
          (graph.requirements id).foldl (graph.listBehindRequirements bound) listed := by
        intro member
        rcases inner.reached id member with old | ⟨requirement, wanted, chain⟩
        · exact done old
        · exact acyclic id (TransGen.head' (mem_requirements.mp wanted) chain)
      exact
        { ordered := inner.ordered.snoc unlisted
            (fun requirement requires => inner.added (mem_requirements.mpr requires))
          kept := List.Subset.trans inner.kept (List.subset_append_left _ _)
          added := List.subset_append_right _ _
          reached := by
            intro other member
            rcases List.mem_append.mp member with before | here
            · rcases inner.reached other before with old | ⟨requirement, wanted, chain⟩
              · exact Or.inl old
              · exact Or.inr ⟨id, List.mem_cons_self,
                  ReflTransGen.head (mem_requirements.mp wanted) chain⟩
            · rw [List.mem_singleton.mp here]
              exact Or.inr ⟨id, List.mem_cons_self, ReflTransGen.refl⟩ }

theorem extends_listing (acyclic : graph.Acyclic) :
    graph.Extends graph.nodes [] graph.listing := by
  apply Extends.foldl _ ordered_nil
  intro id known listed ordered
  exact extends_listBehindRequirements acyclic way_nil known (Nat.le_add_right _ _) ordered

/-- The listing puts each variable behind what it requires. -/
theorem ordered_listing (acyclic : graph.Acyclic) : graph.Ordered graph.listing :=
  (extends_listing acyclic).ordered

/-- The listing lists the variables of the graph, each once. -/
theorem perm_listing (acyclic : graph.Acyclic) : graph.listing.Perm graph.nodes := by
  have listing := extends_listing acyclic
  refine (List.perm_ext_iff_of_nodup listing.ordered.distinct graph.nodes_distinct).mpr ?_
  intro id
  constructor
  · intro member
    rcases listing.reached id member with nothing | ⟨root, known, chain⟩
    · cases nothing
    · rcases ReflTransGen.cases_tail chain with rfl | ⟨_, _, requires⟩
      · exact known
      · exact requires.declared.2
  · intro known
    exact listing.added known

/-- Without cycles the variables are sorted. -/
theorem sort_eq_listing (acyclic : graph.Acyclic) : graph.sort = .ok graph.listing := by
  rw [sort, findCycle?_eq_none acyclic]

end Listing

end DependencyGraph
end CharacterSheet
