import CharacterSheet.Dependency.Graph
import Mathlib.Logic.Relation

/-!
# Which dependencies a graph records

`Requires` is the relation that the edges of a graph make.  A graph made of
variables with their requirements has these variables as its nodes, in the
order of their first mention, and relates each to those of its requirements
that are among the variables.
-/

namespace CharacterSheet

/-- A relation does not lead round in a circle if each step leads to a smaller
number. -/
theorem not_transGen_self_of_rank {α : Type} {relation : α → α → Prop} (rank : α → Nat)
    (decreases : ∀ {first second}, relation first second → rank second < rank first) (item : α) :
    ¬ Relation.TransGen relation item item := by
  have below : ∀ {first second}, Relation.TransGen relation first second →
      rank second < rank first := by
    intro first second chain
    induction chain with
    | single step => exact decreases step
    | tail _ step inductionHypothesis => exact Nat.lt_trans (decreases step) inductionHypothesis
  intro circle
  exact Nat.lt_irrefl _ (below circle)

namespace DependencyGraph

/-- That a variable directly depends on another. -/
def Requires (graph : DependencyGraph) (dependent requirement : VariableId) : Prop :=
  ⟨dependent, requirement⟩ ∈ graph.edges

/-- No variable depends on itself, directly or through others. -/
def Acyclic (graph : DependencyGraph) : Prop :=
  ∀ id, ¬ Relation.TransGen graph.Requires id id

variable {graph : DependencyGraph} {id dependent requirement : VariableId}

theorem mem_requirements : requirement ∈ graph.requirements id ↔ graph.Requires id requirement := by
  rw [requirements, List.mem_map]
  constructor
  · rintro ⟨edge, chosen, rfl⟩
    rcases List.mem_filter.mp chosen with ⟨member, same⟩
    have dependent_eq := of_decide_eq_true same
    subst dependent_eq
    exact member
  · intro requires
    exact ⟨⟨id, requirement⟩, List.mem_filter.mpr ⟨requires, decide_eq_true rfl⟩, rfl⟩

theorem mem_dependents : dependent ∈ graph.dependents id ↔ graph.Requires dependent id := by
  rw [dependents, List.mem_map]
  constructor
  · rintro ⟨edge, chosen, rfl⟩
    rcases List.mem_filter.mp chosen with ⟨member, same⟩
    have requirement_eq := of_decide_eq_true same
    subst requirement_eq
    exact member
  · intro requires
    exact ⟨⟨dependent, id⟩, List.mem_filter.mpr ⟨requires, decide_eq_true rfl⟩, rfl⟩

/-- Dependencies connect variables of the graph. -/
theorem Requires.declared (requires : graph.Requires dependent requirement) :
    dependent ∈ graph.nodes ∧ requirement ∈ graph.nodes :=
  graph.edges_declared _ requires

section Building

theorem nodes_addEdge (dependentKnown : dependent ∈ graph.nodes)
    (requirementKnown : requirement ∈ graph.nodes) :
    (graph.addEdge dependent requirement).nodes = graph.nodes := by
  simp only [addEdge, addNode, appendNew_of_mem dependentKnown, appendNew_of_mem requirementKnown]

theorem requires_addEdge {first second : VariableId} :
    (graph.addEdge first second).Requires dependent requirement ↔
      graph.Requires dependent requirement ∨ dependent = first ∧ requirement = second := by
  rw [Requires, addEdge, mem_appendNew, Dependency.mk.injEq]
  rfl

/-- Recording the requirements of a variable adds no variables. -/
theorem nodes_addRequirements (known : id ∈ graph.nodes) (wanted : List VariableId) :
    (graph.addRequirements id wanted).nodes = graph.nodes := by
  induction wanted generalizing graph with
  | nil => rfl
  | cons next rest inductionHypothesis =>
    rw [addRequirements]
    by_cases declared : next ∈ graph.nodes
    · have same := nodes_addEdge known declared
      rw [if_pos declared, inductionHypothesis (same ▸ known), same]
    · rw [if_neg declared, inductionHypothesis known]

theorem requires_addRequirements (known : id ∈ graph.nodes) (wanted : List VariableId) :
    (graph.addRequirements id wanted).Requires dependent requirement ↔
      graph.Requires dependent requirement ∨
        dependent = id ∧ requirement ∈ wanted ∧ requirement ∈ graph.nodes := by
  induction wanted generalizing graph with
  | nil => simp [addRequirements]
  | cons next rest inductionHypothesis =>
    rw [addRequirements]
    by_cases declared : next ∈ graph.nodes
    · have same := nodes_addEdge known declared
      rw [if_pos declared, inductionHypothesis (same ▸ known), requires_addEdge, same]
      constructor
      · rintro ((old | ⟨rfl, rfl⟩) | ⟨rfl, listed, member⟩)
        · exact Or.inl old
        · exact Or.inr ⟨rfl, List.mem_cons_self, declared⟩
        · exact Or.inr ⟨rfl, List.mem_cons_of_mem _ listed, member⟩
      · rintro (old | ⟨rfl, listed, member⟩)
        · exact Or.inl (Or.inl old)
        · rcases List.mem_cons.mp listed with rfl | later
          · exact Or.inl (Or.inr ⟨rfl, rfl⟩)
          · exact Or.inr ⟨rfl, later, member⟩
    · rw [if_neg declared, inductionHypothesis known]
      constructor
      · rintro (old | ⟨rfl, listed, member⟩)
        · exact Or.inl old
        · exact Or.inr ⟨rfl, List.mem_cons_of_mem _ listed, member⟩
      · rintro (old | ⟨rfl, listed, member⟩)
        · exact Or.inl old
        · rcases List.mem_cons.mp listed with rfl | later
          · exact absurd member declared
          · exact Or.inr ⟨rfl, later, member⟩

theorem foldl_addNode (entries : List (VariableId × List VariableId)) (graph : DependencyGraph) :
    (entries.foldl (fun graph entry => graph.addNode entry.1) graph).nodes =
        (entries.map Prod.fst).foldl appendNew graph.nodes ∧
      (entries.foldl (fun graph entry => graph.addNode entry.1) graph).edges = graph.edges := by
  induction entries generalizing graph with
  | nil => exact ⟨rfl, rfl⟩
  | cons entry rest inductionHypothesis => exact inductionHypothesis (graph.addNode entry.1)

theorem foldl_addRequirements (entries : List (VariableId × List VariableId))
    (known : ∀ entry ∈ entries, entry.1 ∈ graph.nodes) :
    (entries.foldl (fun graph entry => graph.addRequirements entry.1 entry.2) graph).nodes =
        graph.nodes ∧
      ∀ dependent requirement,
        (entries.foldl (fun graph entry => graph.addRequirements entry.1 entry.2)
            graph).Requires dependent requirement ↔
          graph.Requires dependent requirement ∨ requirement ∈ graph.nodes ∧
            ∃ wanted, (dependent, wanted) ∈ entries ∧ requirement ∈ wanted := by
  induction entries generalizing graph with
  | nil => simp
  | cons entry rest inductionHypothesis =>
    have headKnown := known entry List.mem_cons_self
    have same := nodes_addRequirements headKnown entry.2
    have restKnown : ∀ other ∈ rest,
        other.1 ∈ (graph.addRequirements entry.1 entry.2).nodes := by
      intro other member
      rw [same]
      exact known other (List.mem_cons_of_mem _ member)
    rcases inductionHypothesis restKnown with ⟨nodes, requires⟩
    rw [List.foldl_cons]
    refine ⟨nodes.trans same, ?_⟩
    intro dependent requirement
    rw [requires, requires_addRequirements headKnown, same]
    constructor
    · rintro ((old | ⟨rfl, wanted, member⟩) | ⟨member, wanted, listed, inside⟩)
      · exact Or.inl old
      · exact Or.inr ⟨member, entry.2, List.mem_cons_self, wanted⟩
      · exact Or.inr ⟨member, wanted, List.mem_cons_of_mem _ listed, inside⟩
    · rintro (old | ⟨member, wanted, listed, inside⟩)
      · exact Or.inl (Or.inl old)
      · rcases List.mem_cons.mp listed with rfl | later
        · exact Or.inl (Or.inr ⟨rfl, inside, member⟩)
        · exact Or.inr ⟨member, wanted, later, inside⟩

/-- The variables of a graph, in the order of their first mention. -/
theorem nodes_ofDependencies (entries : List (VariableId × List VariableId)) :
    (ofDependencies entries).nodes = firstOccurrences (entries.map Prod.fst) := by
  rw [ofDependencies]
  have added := foldl_addNode entries empty
  have known : ∀ entry ∈ entries, entry.1 ∈
      (entries.foldl (fun graph entry => graph.addNode entry.1) empty).nodes := by
    intro entry member
    rw [added.1]
    exact mem_foldl_appendNew.mpr (Or.inr (List.mem_map_of_mem member))
  exact (foldl_addRequirements entries known).1.trans added.1

/-- A variable depends on those of its requirements that are variables of the
graph. -/
theorem requires_ofDependencies (entries : List (VariableId × List VariableId)) :
    (ofDependencies entries).Requires dependent requirement ↔
      requirement ∈ entries.map Prod.fst ∧
        ∃ wanted, (dependent, wanted) ∈ entries ∧ requirement ∈ wanted := by
  have added := foldl_addNode entries empty
  have nodes : ∀ id, id ∈ (entries.foldl (fun graph entry => graph.addNode entry.1) empty).nodes ↔
      id ∈ entries.map Prod.fst := by
    intro id
    rw [added.1]
    exact mem_firstOccurrences
  have known : ∀ entry ∈ entries, entry.1 ∈
      (entries.foldl (fun graph entry => graph.addNode entry.1) empty).nodes :=
    fun entry member => (nodes entry.1).mpr (List.mem_map_of_mem member)
  rw [ofDependencies, (foldl_addRequirements entries known).2, nodes]
  constructor
  · rintro (old | new)
    · rw [Requires, added.2] at old
      cases old
    · exact new
  · exact Or.inr

end Building

end DependencyGraph
end CharacterSheet
