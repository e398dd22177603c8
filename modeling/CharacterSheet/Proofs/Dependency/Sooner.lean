import CharacterSheet.Proofs.Dependency.Order
import Mathlib.Data.List.Infix
import Mathlib.Order.WellFounded

/-!
# Which of two variables is listed first

The listing goes through the variables in the order of declaration and lists
each behind its requirements.  So it is the first declared variable that leads
to one of two variables which decides between them.  If it is one of the two
and does not require the other, it comes first.  Otherwise its requirements
decide in the same way, in the order in which they are recorded.

`Sooner` describes this walk, and `precedes_listing_iff` says that it decides
as the listing does.
-/

namespace CharacterSheet
namespace DependencyGraph

open Relation

/-- In a list that holds the first of two variables, the second does not stand
before it. -/
def Precedes (first second : VariableId) (listed : List VariableId) : Prop :=
  ∃ before after, listed = before ++ first :: after ∧ second ∉ before

/-- Going through some variables and what each requires, the first of two
variables is passed before the second. -/
inductive Sooner (graph : DependencyGraph) (first second : VariableId) : List VariableId → Prop
  /-- It stands at the front and does not require the other. -/
  | here {rest : List VariableId} (free : ¬ ReflTransGen graph.Requires first second) :
      Sooner graph first second (first :: rest)
  /-- It is passed first among the requirements of the front. -/
  | within {root : VariableId} {rest : List VariableId}
      (inner : Sooner graph first second (graph.requirements root)) :
      Sooner graph first second (root :: rest)
  /-- The front leads to neither. -/
  | past {root : VariableId} {rest : List VariableId}
      (notFirst : ¬ ReflTransGen graph.Requires root first)
      (notSecond : ¬ ReflTransGen graph.Requires root second)
      (later : Sooner graph first second rest) :
      Sooner graph first second (root :: rest)

section Precedes

variable {first second : VariableId} {listed : List VariableId}

theorem precedes_of_mem (member : first ∈ listed) (absent : second ∉ listed) :
    Precedes first second listed := by
  rcases List.append_of_mem member with ⟨before, after, split⟩
  refine ⟨before, after, split, fun early => absent ?_⟩
  rw [split]
  exact List.mem_append_left _ early

theorem Precedes.mono {longer : List VariableId} (precedes : Precedes first second listed)
    (kept : listed <+: longer) : Precedes first second longer := by
  rcases precedes with ⟨before, after, rfl, late⟩
  rcases kept with ⟨more, rfl⟩
  exact ⟨before, after ++ more, by rw [List.append_assoc, List.cons_append], late⟩

/-- Two different variables do not precede each other. -/
theorem Precedes.asymm (precedes : Precedes first second listed) (different : first ≠ second) :
    ¬ Precedes second first listed := by
  rcases precedes with ⟨before, after, rfl, late⟩
  rintro ⟨others, behind, split, later⟩
  rcases List.append_eq_append_iff.mp split with ⟨middle, rfl, rest⟩ | ⟨middle, rfl, rest⟩
  · cases middle with
    | nil => exact different (List.cons.inj rest).1
    | cons head middle =>
      rw [List.cons_append, List.cons.injEq] at rest
      rcases rest with ⟨rfl, -⟩
      exact later (List.mem_append_right _ List.mem_cons_self)
  · cases middle with
    | nil => exact different (List.cons.inj rest).1.symm
    | cons head middle =>
      rw [List.cons_append, List.cons.injEq] at rest
      rcases rest with ⟨rfl, -⟩
      exact late (List.mem_append_right _ List.mem_cons_self)

end Precedes

variable {graph : DependencyGraph} {first second : VariableId}

/-- What a listed variable leads to is listed. -/
theorem Ordered.mem_of_reaches {listed : List VariableId} (ordered : graph.Ordered listed)
    {id other : VariableId} (reaches : ReflTransGen graph.Requires id other)
    (member : id ∈ listed) : other ∈ listed := by
  induction reaches with
  | refl => exact member
  | tail _ requires inductionHypothesis =>
    rcases List.append_of_mem inductionHypothesis with ⟨before, after, split⟩
    rw [split]
    exact List.mem_append_left _ (ordered.behind before _ after split _ requires)

/-- In a graph without cycles the requirements of a variable can be followed
only so far. -/
theorem wellFounded_requires (acyclic : graph.Acyclic) :
    WellFounded fun requirement dependent => graph.Requires dependent requirement := by
  have ordered := ordered_listing acyclic
  apply Subrelation.wf (r := InvImage (· < ·) fun id => graph.listing.idxOf id) _
    (InvImage.wf _ Nat.lt_wfRel.wf)
  intro requirement dependent requires
  have listed : dependent ∈ graph.listing :=
    (perm_listing acyclic).mem_iff.mpr requires.declared.1
  rcases List.eq_append_cons_of_mem listed with ⟨before, after, split, new⟩
  have earlier := ordered.behind before dependent after split requirement requires
  show graph.listing.idxOf requirement < graph.listing.idxOf dependent
  rw [split, List.idxOf_append_of_mem earlier, List.idxOf_append_of_notMem new, List.idxOf_cons_self]
  exact List.idxOf_lt_length_of_mem earlier

namespace Sooner

variable {roots : List VariableId}

/-- One of the variables gone through leads to the one passed first. -/
theorem reaches (sooner : graph.Sooner first second roots) :
    ∃ root ∈ roots, ReflTransGen graph.Requires root first := by
  induction sooner with
  | here => exact ⟨first, List.mem_cons_self, .refl⟩
  | within _ inductionHypothesis =>
    rcases inductionHypothesis with ⟨requirement, wanted, chain⟩
    exact ⟨_, List.mem_cons_self, .head (mem_requirements.mp wanted) chain⟩
  | past _ _ _ inductionHypothesis =>
    rcases inductionHypothesis with ⟨root, member, chain⟩
    exact ⟨root, List.mem_cons_of_mem _ member, chain⟩

/-- A variable that leads to one of two others is the one that does not require
the other, or leads there through a requirement. -/
theorem requirement_of_leads (different : first ≠ second) {root : VariableId}
    (leads : ReflTransGen graph.Requires root first) :
    (root = first ∧ ¬ ReflTransGen graph.Requires first second) ∨
      ∃ requirement ∈ graph.requirements root,
        ReflTransGen graph.Requires requirement first ∨
          ReflTransGen graph.Requires requirement second := by
  rcases ReflTransGen.cases_head leads with rfl | ⟨requirement, requires, chain⟩
  · by_cases free : ReflTransGen graph.Requires root second
    · rcases ReflTransGen.cases_head free with same | ⟨requirement, requires, chain⟩
      · exact absurd same different
      · exact Or.inr ⟨requirement, mem_requirements.mpr requires, Or.inr chain⟩
    · exact Or.inl ⟨rfl, free⟩
  · exact Or.inr ⟨requirement, mem_requirements.mpr requires, Or.inl chain⟩

/-- The first of some variables that leads to one of two others decides between
them, provided that it can. -/
theorem total_of_front
    (front : ∀ root ∈ roots, ReflTransGen graph.Requires root first ∨
      ReflTransGen graph.Requires root second → ∀ rest,
        graph.Sooner first second (root :: rest) ∨ graph.Sooner second first (root :: rest))
    (leads : ∃ root ∈ roots, ReflTransGen graph.Requires root first ∨
      ReflTransGen graph.Requires root second) :
    graph.Sooner first second roots ∨ graph.Sooner second first roots := by
  induction roots with
  | nil =>
    rcases leads with ⟨root, member, -⟩
    cases member
  | cons root rest inductionHypothesis =>
    by_cases leadsToFirst : ReflTransGen graph.Requires root first
    · exact front root List.mem_cons_self (Or.inl leadsToFirst) rest
    by_cases leadsToSecond : ReflTransGen graph.Requires root second
    · exact front root List.mem_cons_self (Or.inr leadsToSecond) rest
    rcases leads with ⟨other, member, chain⟩
    rcases List.mem_cons.mp member with rfl | later
    · exact absurd chain (not_or.mpr ⟨leadsToFirst, leadsToSecond⟩)
    · have others := inductionHypothesis
        (fun root member => front root (List.mem_cons_of_mem _ member)) ⟨other, later, chain⟩
      exact others.imp (.past leadsToFirst leadsToSecond) (.past leadsToSecond leadsToFirst)

/-- One of two different variables is passed first if there is a way to any of
them. -/
theorem total (acyclic : graph.Acyclic) (different : first ≠ second)
    (leads : ∃ root ∈ roots, ReflTransGen graph.Requires root first ∨
      ReflTransGen graph.Requires root second) :
    graph.Sooner first second roots ∨ graph.Sooner second first roots := by
  have front : ∀ root, ReflTransGen graph.Requires root first ∨
      ReflTransGen graph.Requires root second → ∀ rest,
        graph.Sooner first second (root :: rest) ∨ graph.Sooner second first (root :: rest) := by
    intro root
    induction root using (wellFounded_requires acyclic).induction with
    | _ root inductionHypothesis =>
      intro rootLeads rest
      have inner : (∃ requirement ∈ graph.requirements root,
          ReflTransGen graph.Requires requirement first ∨
            ReflTransGen graph.Requires requirement second) →
          graph.Sooner first second (root :: rest) ∨ graph.Sooner second first (root :: rest) := by
        intro requirementLeads
        have decided := total_of_front (fun requirement wanted =>
          inductionHypothesis requirement (mem_requirements.mp wanted)) requirementLeads
        exact decided.imp .within .within
      rcases rootLeads with chain | chain
      · rcases requirement_of_leads different chain with ⟨rfl, free⟩ | requirementLeads
        · exact Or.inl (.here free)
        · exact inner requirementLeads
      · rcases requirement_of_leads different.symm chain with
          ⟨rfl, free⟩ | ⟨requirement, wanted, onwards⟩
        · exact Or.inr (.here free)
        · exact inner ⟨requirement, wanted, onwards.symm⟩
  exact total_of_front (fun root _ => front root) leads

end Sooner

/-- Listing more variables leaves what is listed at the front. -/
theorem isPrefix_foldl {visit : List VariableId → VariableId → List VariableId}
    (each : ∀ listed id, listed <+: visit listed id) (roots listed : List VariableId) :
    listed <+: roots.foldl visit listed := by
  induction roots generalizing listed with
  | nil => exact List.prefix_refl listed
  | cons root rest inductionHypothesis =>
    exact (each listed root).trans (inductionHypothesis (visit listed root))

theorem isPrefix_listBehindRequirements (bound : Nat) (listed : List VariableId)
    (id : VariableId) : listed <+: graph.listBehindRequirements bound listed id := by
  induction bound generalizing listed id with
  | zero => exact List.prefix_refl listed
  | succ bound inductionHypothesis =>
    rw [listBehindRequirements]
    by_cases done : id ∈ listed
    · rw [if_pos done]
    · rw [if_neg done]
      exact (isPrefix_foldl inductionHypothesis _ listed).trans (List.prefix_append _ _)

/-- Listing a variable behind its requirements does not list what it does not
lead to. -/
theorem not_mem_listBehindRequirements (acyclic : graph.Acyclic) {root id : VariableId}
    {bound : Nat} {path listed : List VariableId} (way : graph.Way path root)
    (known : root ∈ graph.nodes) (enough : graph.nodes.length ≤ bound + path.length)
    (ordered : graph.Ordered listed) (new : id ∉ listed)
    (unreached : ¬ ReflTransGen graph.Requires root id) :
    id ∉ graph.listBehindRequirements bound listed root := by
  intro member
  have visited := extends_listBehindRequirements acyclic way known enough ordered
  rcases visited.reached id member with old | ⟨same, here, chain⟩
  · exact new old
  · rw [List.mem_singleton.mp here] at chain
    exact unreached chain

/-- The variable passed first is listed first, provided that neither is listed
before. -/
theorem Sooner.precedes (acyclic : graph.Acyclic) {roots : List VariableId}
    (sooner : graph.Sooner first second roots) {bound : Nat} {path listed : List VariableId}
    (ways : ∀ root ∈ roots, graph.Way path root)
    (known : roots ⊆ graph.nodes) (enough : graph.nodes.length ≤ bound + path.length)
    (ordered : graph.Ordered listed) (newFirst : first ∉ listed) (newSecond : second ∉ listed) :
    Precedes first second (roots.foldl (graph.listBehindRequirements bound) listed) := by
  induction sooner generalizing bound path listed with
  | @here rest free =>
    have visited := extends_listBehindRequirements acyclic (ways first List.mem_cons_self)
      (known List.mem_cons_self) enough ordered
    have absent := not_mem_listBehindRequirements acyclic (ways first List.mem_cons_self)
      (known List.mem_cons_self) enough ordered newSecond free
    have front := precedes_of_mem (visited.added List.mem_cons_self) absent
    exact front.mono (isPrefix_foldl (isPrefix_listBehindRequirements bound) rest _)
  | @within root rest inner inductionHypothesis =>
    have way := ways root List.mem_cons_self
    rcases inner.reaches with ⟨requirement, wanted, chain⟩
    have new : root ∉ listed := fun member =>
      newFirst (ordered.mem_of_reaches (.head (mem_requirements.mp wanted) chain) member)
    have room := way.length_lt acyclic (known List.mem_cons_self)
    obtain ⟨bound, rfl⟩ : ∃ lower, bound = lower + 1 :=
      Nat.exists_eq_succ_of_ne_zero (by omega)
    have roomBelow : graph.nodes.length ≤ bound + (root :: path).length := by
      rw [List.length_cons]
      omega
    have front := inductionHypothesis
      (fun requirement wanted => way.step acyclic (mem_requirements.mp wanted))
      (fun requirement wanted => (mem_requirements.mp wanted).declared.2)
      roomBelow ordered newFirst newSecond
    have visited : Precedes first second (graph.listBehindRequirements (bound + 1) listed root) := by
      rw [listBehindRequirements, if_neg new]
      exact front.mono (List.prefix_append _ _)
    exact visited.mono (isPrefix_foldl (isPrefix_listBehindRequirements (bound + 1)) rest _)
  | @past root rest notFirst notSecond later inductionHypothesis =>
    have visited := extends_listBehindRequirements acyclic (ways root List.mem_cons_self)
      (known List.mem_cons_self) enough ordered
    have stillNew : ∀ {id}, id ∉ listed → ¬ ReflTransGen graph.Requires root id →
        id ∉ graph.listBehindRequirements bound listed root :=
      not_mem_listBehindRequirements acyclic (ways root List.mem_cons_self)
        (known List.mem_cons_self) enough ordered
    exact inductionHypothesis (fun root member => ways root (List.mem_cons_of_mem _ member))
      (fun root member => known (List.mem_cons_of_mem _ member)) enough visited.ordered
      (stillNew newFirst notFirst) (stillNew newSecond notSecond)

/-- The listing puts the first of two variables before the second exactly if
going through the declared variables passes it first. -/
theorem precedes_listing_iff (acyclic : graph.Acyclic) (different : first ≠ second)
    (known : first ∈ graph.nodes) :
    Precedes first second graph.listing ↔ graph.Sooner first second graph.nodes := by
  have decided : ∀ {first second}, graph.Sooner first second graph.nodes →
      Precedes first second graph.listing := by
    intro first second sooner
    exact sooner.precedes acyclic (fun _ _ => way_nil) (List.Subset.refl _)
      (Nat.le_add_right _ _) ordered_nil List.not_mem_nil List.not_mem_nil
  constructor
  · intro precedes
    rcases Sooner.total acyclic different ⟨first, known, Or.inl .refl⟩ with sooner | later
    · exact sooner
    · exact absurd (decided later) (precedes.asymm different)
  · exact decided

end DependencyGraph
end CharacterSheet
