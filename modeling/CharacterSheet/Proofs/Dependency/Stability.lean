import CharacterSheet.Proofs.Dependency.Cycle
import Mathlib.Data.List.Nodup

/-!
# An order that is kept

The listing puts a variable where it is declared unless it has to wait for a
requirement.  So if all variables are declared behind what they require, none
has to wait and the listing is the order of declaration.  The listing is such
an order itself, and declaring the variables in it changes nothing any more.

What carries this is that everything a variable requires is listed before its
turn comes: then going through its requirements lists nothing.
-/

namespace CharacterSheet
namespace DependencyGraph

variable {graph : DependencyGraph} {listed : List VariableId} {id : VariableId} {bound : Nat}

theorem listBehindRequirements_of_mem (done : id ∈ listed) :
    graph.listBehindRequirements bound listed id = listed := by
  cases bound with
  | zero => rfl
  | succ bound => rw [listBehindRequirements, if_pos done]

/-- A variable whose requirements are all listed is listed next. -/
theorem listBehindRequirements_of_ready (unlisted : id ∉ listed)
    (ready : ∀ requirement, graph.Requires id requirement → requirement ∈ listed) :
    graph.listBehindRequirements (bound + 1) listed id = listed ++ [id] := by
  have nothingNew (wanted : List VariableId) (done : wanted ⊆ listed) :
      wanted.foldl (graph.listBehindRequirements bound) listed = listed := by
    induction wanted with
    | nil => rfl
    | cons next rest inductionHypothesis =>
      rcases List.cons_subset.mp done with ⟨here, others⟩
      rw [List.foldl_cons, listBehindRequirements_of_mem here, inductionHypothesis others]
  rw [listBehindRequirements, if_neg unlisted, nothingNew]
  exact fun requirement wanted => ready requirement (mem_requirements.mp wanted)

/-- Variables that stand behind what they require stand there for good: no
circle leads back to one of them. -/
theorem Ordered.acyclic (ordered : graph.Ordered graph.nodes) : graph.Acyclic := by
  apply not_transGen_self_of_rank graph.nodes.idxOf
  intro dependent requirement requires
  rcases List.append_of_mem requires.declared.1 with ⟨before, after, split⟩
  have early := ordered.behind before dependent after split requirement requires
  have distinct := ordered.distinct
  rw [split] at distinct ⊢
  have late : dependent ∉ before :=
    fun member => (List.nodup_append.mp distinct).2.2 _ member _ List.mem_cons_self rfl
  rw [List.idxOf_append_of_mem early, List.idxOf_append_of_notMem late, List.idxOf_cons_self]
  exact List.idxOf_lt_length_of_mem early

theorem Ordered.listing_eq (ordered : graph.Ordered graph.nodes) :
    graph.listing = graph.nodes := by
  -- From a front part of the variables on, each variable is ready in its turn.
  have onward (rest : List VariableId) : ∀ front, graph.nodes = front ++ rest →
      rest.foldl (graph.listBehindRequirements graph.nodes.length) front = graph.nodes := by
    induction rest with
    | nil =>
      intro front split
      rw [List.append_nil] at split
      exact split.symm
    | cons id rest inductionHypothesis =>
      intro front split
      have distinct := ordered.distinct
      rw [split] at distinct
      have unlisted : id ∉ front :=
        fun member => (List.nodup_append.mp distinct).2.2 _ member _ List.mem_cons_self rfl
      have positive : 0 < graph.nodes.length := by
        rw [split, List.length_append, List.length_cons]
        omega
      obtain ⟨bound, room⟩ := Nat.exists_eq_add_of_lt positive
      have next : graph.listBehindRequirements graph.nodes.length front id = front ++ [id] := by
        rw [room]
        exact listBehindRequirements_of_ready unlisted (ordered.behind front id rest split)
      rw [List.foldl_cons, next]
      exact inductionHypothesis (front ++ [id]) (by rw [split, List.append_assoc]; rfl)
  exact onward graph.nodes [] rfl

/-- Variables that are declared behind what they require are sorted already. -/
theorem sort_eq_nodes (ordered : graph.Ordered graph.nodes) : graph.sort = .ok graph.nodes := by
  rw [sort_eq_listing ordered.acyclic, ordered.listing_eq]

/-! ## Declarations -/

/-- Variables, each with its requirements, in the order of declaration. -/
abbrev Declarations := List (VariableId × List VariableId)

namespace Declarations

/-- That a variable is declared with a requirement. -/
def Declares (entries : Declarations) (id requirement : VariableId) : Prop :=
  ∃ wanted, (id, wanted) ∈ entries ∧ requirement ∈ wanted

/-- Each requirement that is declared at all is declared before the variable
that has it. -/
def RequirementsFirst (entries : Declarations) : Prop :=
  ∀ before id wanted after, entries = before ++ (id, wanted) :: after →
    ∀ requirement ∈ wanted, requirement ∈ entries.map Prod.fst →
      requirement ∈ before.map Prod.fst

/-- Variables are declared again in a given order, with the requirements that
they have. -/
structure Again (entries : Declarations) (order : List VariableId) (again : Declarations) :
    Prop where
  inOrder : again.map Prod.fst = order
  same : ∀ id requirement, again.Declares id requirement ↔ entries.Declares id requirement

variable {entries again : Declarations} {order : List VariableId}

theorem requires_iff {id requirement : VariableId} :
    (ofDependencies entries).Requires id requirement ↔
      requirement ∈ entries.map Prod.fst ∧ entries.Declares id requirement :=
  requires_ofDependencies entries

theorem RequirementsFirst.ordered (distinct : (entries.map Prod.fst).Nodup)
    (first : entries.RequirementsFirst) :
    (ofDependencies entries).Ordered (entries.map Prod.fst) where
  distinct := distinct
  behind before id after split requirement requires := by
    rcases requires_iff.mp requires with ⟨declared, wanted, listed, member⟩
    rcases List.append_of_mem listed with ⟨early, late, rfl⟩
    have here := first early id wanted late rfl requirement member declared
    -- The variable stands at one place only, so the same is before it.
    rw [List.map_append, List.map_cons] at split distinct
    have once := (List.nodup_cons.mp (List.nodup_middle.mp distinct)).1
    rw [List.mem_append, not_or] at once
    have places := (List.append_cons_inj_of_notMem once.1 once.2).mp split
    exact places.1 ▸ here

/-- Variables that are declared in the order of the listing stand behind what
they require. -/
theorem Again.ordered (anew : Again entries (ofDependencies entries).listing again)
    (acyclic : (ofDependencies entries).Acyclic) :
    (ofDependencies again).Ordered (ofDependencies entries).listing where
  distinct := (ordered_listing acyclic).distinct
  behind before id after split requirement requires := by
    rcases requires_iff.mp requires with ⟨declared, declares⟩
    have known : requirement ∈ (ofDependencies entries).nodes := by
      rw [anew.inOrder] at declared
      exact (perm_listing acyclic).subset declared
    rw [nodes_ofDependencies, mem_firstOccurrences] at known
    have requiresToo := requires_iff.mpr ⟨known, (anew.same id requirement).mp declares⟩
    exact (ordered_listing acyclic).behind before id after split requirement requiresToo

theorem nodes_of_nodup (distinct : (entries.map Prod.fst).Nodup) :
    (ofDependencies entries).nodes = entries.map Prod.fst := by
  rw [nodes_ofDependencies, firstOccurrences_of_nodup distinct]

/-- The variables of some declarations in another order, each with all the
requirements that it is declared with. -/
def rearranged (entries : Declarations) (order : List VariableId) : Declarations :=
  order.map fun id => (id, (entries.filter (·.1 = id)).flatMap Prod.snd)

theorem again_rearranged (same : ∀ id, id ∈ order ↔ id ∈ entries.map Prod.fst) :
    Again entries order (entries.rearranged order) where
  inOrder := by
    rw [rearranged, List.map_map]
    exact List.map_id order
  same id requirement := by
    constructor
    · rintro ⟨wanted, listed, member⟩
      rcases List.mem_map.mp listed with ⟨_, _, ⟨⟩⟩
      rcases List.mem_flatMap.mp member with ⟨entry, chosen, inside⟩
      rcases List.mem_filter.mp chosen with ⟨entryListed, sameId⟩
      exact ⟨entry.2, of_decide_eq_true sameId ▸ entryListed, inside⟩
    · rintro ⟨wanted, listed, member⟩
      have known := (same id).mpr (List.mem_map_of_mem listed)
      refine ⟨_, List.mem_map_of_mem known, List.mem_flatMap.mpr ⟨(id, wanted), ?_, member⟩⟩
      exact List.mem_filter.mpr ⟨listed, decide_eq_true rfl⟩

/-- Sorting keeps the order of declaration if every requirement that is
declared is declared first.  Variables that are declared again in the order
into which they are sorted are such, so sorting them gives this order again. -/
theorem sort_stable :
    (∀ entries : Declarations, (entries.map Prod.fst).Nodup → entries.RequirementsFirst →
      (ofDependencies entries).sort = .ok (entries.map Prod.fst)) ∧
      ∀ entries : Declarations, (ofDependencies entries).Acyclic →
        ∃ order, (ofDependencies entries).sort = .ok order ∧
          (∃ again, Again entries order again) ∧
          ∀ again, Again entries order again → (ofDependencies again).sort = .ok order := by
  constructor
  · intro entries distinct first
    have nodes := nodes_of_nodup distinct
    rw [← nodes]
    exact sort_eq_nodes (nodes ▸ first.ordered distinct)
  · intro entries acyclic
    have listed (id : VariableId) :
        id ∈ (ofDependencies entries).listing ↔ id ∈ entries.map Prod.fst := by
      rw [(perm_listing acyclic).mem_iff, nodes_ofDependencies, mem_firstOccurrences]
    refine ⟨_, sort_eq_listing acyclic, ⟨_, again_rearranged listed⟩, fun again anew => ?_⟩
    have distinct : (again.map Prod.fst).Nodup :=
      anew.inOrder.symm ▸ (ordered_listing acyclic).distinct
    have nodes := (nodes_of_nodup distinct).trans anew.inOrder
    rw [← nodes]
    exact sort_eq_nodes (nodes ▸ anew.ordered acyclic)

/-- A total that is declared before its parts is sorted behind them, and stays
there when all are declared again. -/
theorem sort_stable_total :
    let left : VariableId := ⟨"left"⟩
    let right : VariableId := ⟨"right"⟩
    let total : VariableId := ⟨"total"⟩
    let entries : Declarations := [(total, [left, right]), (left, []), (right, [left])]
    let again : Declarations := [(left, []), (right, [left]), (total, [left, right])]
    (again.map Prod.fst).Nodup ∧ again.RequirementsFirst ∧ (ofDependencies entries).Acyclic ∧
      (ofDependencies entries).sort = .ok [left, right, total] ∧
      Again entries [left, right, total] again ∧
      (ofDependencies again).sort = .ok [left, right, total] := by
  intro left right total entries again
  have distinct : (again.map Prod.fst).Nodup := by decide
  have first : again.RequirementsFirst := by
    intro before id wanted after split
    simp only [again, List.cons_eq_append_iff, List.cons.injEq] at split
    rcases split with ⟨rfl, same, -⟩ | ⟨_, rfl, ⟨rfl, same, -⟩ | ⟨_, rfl, ⟨rfl, same, -⟩ | rest⟩⟩
    · cases same
      simp
    · cases same
      simp
    · cases same
      simp
    · simp at rest
  have sorted : (ofDependencies entries).sort = .ok [left, right, total] := by decide
  have acyclic := (sort_eq_ok_iff.mp sorted).1
  have anew : Again entries [left, right, total] again :=
    ⟨rfl, fun id requirement => by simp [Declares, entries, again]; grind⟩
  rcases sort_stable.2 entries acyclic with ⟨order, sortedToo, -, kept⟩
  obtain rfl : order = _ := Except.ok.inj (sortedToo.symm.trans sorted)
  exact ⟨distinct, first, acyclic, sorted, anew, kept again anew⟩

end Declarations
end DependencyGraph
end CharacterSheet
