import CharacterSheet.Proofs.Dependency.Sorting
import Mathlib.Data.List.Chain

/-!
# The circle that is reported

The way of the search to a variable is a chain in which each variable is a
requirement of the next, and no variable stands on it twice.  It keeps within
the variables visited so far, which only grow in number, so a variable that is
not visited is not on the way.  If the search meets a variable that is on the
way, the part of the way from there closes to a circle.

The search fails in no other way.  Hence what is reported is always a circle of
the dependencies, through no variable twice and with nothing else on it.
-/

namespace CharacterSheet
namespace DependencyGraph

open Relation

/-- Some variables go round in a circle: each is required by the next, the
first stands again at the end, and no other variable comes twice. -/
structure IsCircle (depends : VariableId → VariableId → Prop) (circle : List VariableId) :
    Prop where
  twoAtLeast : 2 ≤ circle.length
  closed : circle.head? = circle.getLast?
  distinct : circle.dropLast.Nodup
  linked : circle.IsChain fun requirement dependent => depends dependent requirement
  /-- Every variable depends on itself, through variables of the circle alone. -/
  around : ∀ id ∈ circle, TransGen (fun dependent requirement =>
    dependent ∈ circle ∧ requirement ∈ circle ∧ depends dependent requirement) id id

section Closing

variable {depends : VariableId → VariableId → Prop} {meeting : VariableId}
  {between : List VariableId}

/-- In a chain from a variable back to it, every variable depends on itself. -/
theorem transGen_of_isChain
    (linked : (meeting :: (between ++ [meeting])).IsChain
      fun requirement dependent => depends dependent requirement)
    {id : VariableId} (member : id ∈ meeting :: (between ++ [meeting])) :
    TransGen depends id id := by
  let precedes (earlier later : VariableId) : Prop := TransGen depends later earlier
  have transitive : Trans precedes precedes precedes := ⟨fun first second => second.trans first⟩
  have chain : (meeting :: (between ++ [meeting])).IsChain precedes :=
    linked.imp fun _ _ required => TransGen.single required
  have far := chain.pairwise
  have fromMeeting := (List.pairwise_cons.mp far).1
  have toMeeting : ∀ other ∈ meeting :: between, TransGen depends meeting other :=
    fun other earlier =>
      (List.pairwise_append.mp far).2.2 other earlier meeting (List.mem_singleton.mpr rfl)
  have throughMeeting : TransGen depends meeting meeting := toMeeting meeting List.mem_cons_self
  rcases List.mem_cons.mp member with rfl | later
  · exact throughMeeting
  · rcases List.mem_append.mp later with inside | last
    · exact (fromMeeting id later).trans (toMeeting id (List.mem_cons_of_mem _ inside))
    · rw [List.mem_singleton.mp last]
      exact throughMeeting

/-- A chain from a variable back to it is a circle if no variable stands twice
on the way. -/
theorem isCircle_of_isChain (distinct : (meeting :: between).Nodup)
    (linked : (meeting :: (between ++ [meeting])).IsChain
      fun requirement dependent => depends dependent requirement) :
    IsCircle depends (meeting :: (between ++ [meeting])) where
  twoAtLeast := by
    rw [List.length_cons, List.length_append, List.length_singleton]
    omega
  closed := by
    rw [List.head?_cons, ← List.cons_append, List.getLast?_concat]
  distinct := by
    rw [← List.cons_append, List.dropLast_concat]
    exact distinct
  linked := linked
  around id member := by
    refine transGen_of_isChain ((List.IsChain.iff_mem.mp linked).imp ?_) member
    intro requirement dependent related
    exact ⟨related.2.1, related.1, related.2.2⟩

/-- The way to a variable that is on it closes to a circle. -/
theorem isCircle_closeCycle {path : List VariableId} (distinct : path.Nodup)
    (linked : (path ++ [meeting]).IsChain
      fun requirement dependent => depends dependent requirement)
    (met : meeting ∈ path) : IsCircle depends (closeCycle path meeting) := by
  rcases List.append_of_mem met with ⟨before, between, rfl⟩
  have apart := List.nodup_append.mp distinct
  have notBefore : ∀ other ∈ before, decide (other ≠ meeting) = true :=
    fun other earlier => decide_eq_true (apart.2.2 other earlier meeting List.mem_cons_self)
  have closing : closeCycle (before ++ meeting :: between) meeting =
      meeting :: (between ++ [meeting]) := by
    rw [closeCycle, List.dropWhile_append_of_pos notBefore, List.dropWhile_cons_of_neg,
      List.cons_append]
    exact fun different => of_decide_eq_true different rfl
  rw [List.append_assoc, List.cons_append] at linked
  rw [closing]
  exact isCircle_of_isChain apart.2.1 linked.right_of_append

end Closing

/-- Steps that fail one after the other have one that fails first. -/
theorem foldlM_fails {ε σ α : Type} {step : σ → α → Except ε σ} {items : List α} {state : σ}
    {problem : ε} (fails : items.foldlM step state = .error problem) :
    ∃ before item after reached, items = before ++ item :: after ∧
      before.foldlM step state = .ok reached ∧ step reached item = .error problem := by
  induction items generalizing state with
  | nil => cases fails
  | cons item rest inductionHypothesis =>
    rw [List.foldlM_cons] at fails
    cases first : step state item with
    | error _ =>
      rw [first] at fails
      cases fails
      exact ⟨[], item, rest, state, rfl, rfl, first⟩
    | ok next =>
      rw [first] at fails
      rcases inductionHypothesis fails with ⟨before, other, after, reached, split, reaches, failing⟩
      refine ⟨item :: before, other, after, reached, ?_, ?_, failing⟩
      · rw [split, List.cons_append]
      · rw [List.foldlM_cons, first]
        exact reaches

variable {graph : DependencyGraph} {path visited : List VariableId} {id : VariableId}

/-- One step of a search that has reached some variable: a variable that is not
visited is searched, and one that is visited must not be on the way. -/
def takeDependent (graph : DependencyGraph) (bound : Nat) (path visited : List VariableId)
    (next : VariableId) : Except (List VariableId) (List VariableId) :=
  if next ∈ visited then
    if next ∈ path then .error (closeCycle path next) else .ok visited
  else graph.searchFrom bound path next visited

theorem searchFrom_succ (bound : Nat) :
    graph.searchFrom (bound + 1) path id visited =
      (graph.dependents id).reverse.foldlM (graph.takeDependent bound (path ++ [id]))
        (id :: visited) :=
  rfl

/-- What is visited stays visited while dependents are taken, if searches see to
that. -/
theorem subset_of_takeDependents {bound : Nat}
    (grows : ∀ {path visited result : List VariableId} {id : VariableId},
      graph.searchFrom bound path id visited = .ok result → visited ⊆ result)
    {dependents result : List VariableId}
    (succeeds : dependents.foldlM (graph.takeDependent bound path) visited = .ok result) :
    visited ⊆ result := by
  let grown (_ state : List VariableId) : Prop := visited ⊆ state
  have start : grown [] visited := List.Subset.refl _
  refine foldlM_keeps start ?_ succeeds
  intro _ state next _ after kept stepped
  unfold takeDependent at stepped
  split at stepped
  · split at stepped
    · cases stepped
    · cases stepped
      exact kept
  · exact List.Subset.trans kept (grows stepped)

theorem subset_of_searchFrom {bound : Nat} {result : List VariableId}
    (succeeds : graph.searchFrom bound path id visited = .ok result) : visited ⊆ result := by
  induction bound generalizing path id visited result with
  | zero =>
    cases succeeds
    exact List.Subset.refl _
  | succ bound inductionHypothesis =>
    rw [searchFrom_succ] at succeeds
    exact (List.cons_subset.mp (subset_of_takeDependents inductionHypothesis succeeds)).2

/-- What a search reports is a circle, if the way to its start is a chain of
visited variables without repetition. -/
theorem isCircle_of_searchFrom {bound : Nat} {circle : List VariableId}
    (underWay : path ⊆ visited) (unvisited : id ∉ visited) (distinct : path.Nodup)
    (linked : (path ++ [id]).IsChain
      fun requirement dependent => graph.Requires dependent requirement)
    (fails : graph.searchFrom bound path id visited = .error circle) :
    IsCircle graph.Requires circle := by
  induction bound generalizing path id visited with
  | zero => cases fails
  | succ bound inductionHypothesis =>
    rw [searchFrom_succ] at fails
    rcases foldlM_fails fails with ⟨before, next, after, reached, split, reaches, failing⟩
    have listed : next ∈ (graph.dependents id).reverse := by
      rw [split]
      exact List.mem_append_right _ List.mem_cons_self
    have requires := mem_dependents.mp (List.mem_reverse.mp listed)
    have reordered := List.perm_append_singleton id path
    have distinctHere : (path ++ [id]).Nodup :=
      reordered.nodup_iff.mpr
        (List.nodup_cons.mpr ⟨fun onPath => unvisited (underWay onPath), distinct⟩)
    have linkedHere : (path ++ [id] ++ [next]).IsChain
        fun requirement dependent => graph.Requires dependent requirement := by
      refine linked.append (List.isChain_singleton next) ?_
      intro last isLast first isFirst
      rw [List.getLast?_concat, Option.mem_some] at isLast
      rw [List.head?_cons, Option.mem_some] at isFirst
      subst isLast isFirst
      exact requires
    unfold takeDependent at failing
    by_cases seen : next ∈ reached
    · rw [if_pos seen] at failing
      by_cases onPath : next ∈ path ++ [id]
      · rw [if_pos onPath] at failing
        cases failing
        exact isCircle_closeCycle distinctHere linkedHere onPath
      · rw [if_neg onPath] at failing
        cases failing
    · rw [if_neg seen] at failing
      have underWayHere : path ++ [id] ⊆ reached := by
        have entered : path ++ [id] ⊆ id :: visited :=
          List.Subset.trans reordered.subset (List.cons_subset_cons id underWay)
        exact List.Subset.trans entered
          (subset_of_takeDependents subset_of_searchFrom reaches)
      exact inductionHypothesis underWayHere seen distinctHere linkedHere failing

/-- What is found in a graph is a circle of its dependencies. -/
theorem isCircle_of_findCycle? {circle : List VariableId}
    (found : graph.findCycle? = some circle) : IsCircle graph.Requires circle := by
  unfold findCycle? at found
  cases searched : graph.search with
  | ok result =>
    rw [searched] at found
    cases found
  | error reported =>
    rw [searched] at found
    cases found
    rcases foldlM_fails searched with ⟨before, id, after, reached, _, _, failing⟩
    by_cases seen : id ∈ reached
    · rw [if_pos seen] at failing
      cases failing
    · rw [if_neg seen] at failing
      exact isCircle_of_searchFrom (List.nil_subset _) seen List.nodup_nil
        (List.isChain_singleton id) failing

/-- In a graph built from nothing a circle is found exactly if some variable
depends on itself, directly or through others, and what is found is a circle of
the dependencies that were added. -/
theorem findCycle_build (steps : List BuildStep) :
    ((∃ circle, (build steps).findCycle? = some circle) ↔
        ∃ id, TransGen (Records steps) id id) ∧
      ∀ circle, (build steps).findCycle? = some circle → IsCircle (Records steps) circle := by
  rw [← requires_build]
  constructor
  · rw [← Option.isSome_iff_exists, ← Option.ne_none_iff_isSome, Ne, findCycle?_eq_none_iff,
      Acyclic, not_forall]
    simp only [not_not]
  · exact fun circle found => isCircle_of_findCycle? found

end DependencyGraph
end CharacterSheet
