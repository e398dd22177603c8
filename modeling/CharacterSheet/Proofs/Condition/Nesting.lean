import CharacterSheet.Condition.Evaluation
import CharacterSheet.Proofs.Descent

/-!
# Conditions within conditions

A condition on entities asks a filter about them, a filter asks its conditions
about a property, and a property may hold conditions again, which come from the
entities and not from the condition that is being judged.  Nothing gets smaller
on the way, so this could go on for ever.

It does not, because conditions that an entity embeds are judged without
entities, and then no condition on entities asks anything.  Here each question
that comes up has a plan, which says what it asks and in which order, with no
regard to what it will be told.  A question ranks above all that it asks:
conditions with entities rank highest and conditions without them lowest.  So
the plans make a `Descent`, and the answers that agree with all plans are those
that the definitions compute.
-/

namespace CharacterSheet

namespace PropertyCondition

theorem holdsAlone_eq_holds (index : Index) (condition : Condition) :
    holdsAlone index condition = condition.holds index none := by
  cases condition <;> rfl

/-- Embedded conditions are judged without entities. -/
theorem embeddedHold_some (index : Index) (value : Json) :
    embeddedHold index (some value) =
      match Json.list? Condition.ofJson? value with
      | some conditions => Condition.allHold conditions index none
      | none => false := by
  have judged : holdsAlone index = fun condition => condition.holds index none :=
    funext (holdsAlone_eq_holds index)
  rw [embeddedHold, judged]
  rfl

end PropertyCondition

namespace Judging

/-- A question that comes up when conditions are judged. -/
inductive Question where
  /-- Whether all of some conditions hold. -/
  | conditions (conditions : List Condition) (entities : Option (List Entity))
  /-- Whether one condition holds. -/
  | condition (condition : Condition) (entities : Option (List Entity))
  /-- Whether as many entities fit as a condition asks for. -/
  | count (condition : EntityCondition) (entities : List Entity)
  /-- Whether a filter admits the view of an entity. -/
  | filter (filter : Filter) (view : Json)
  /-- What a property condition says of the view of an entity. -/
  | property (condition : PropertyCondition) (view : Json)
  /-- Whether the conditions that a value lists are satisfied. -/
  | embedded (value : Option Json)

namespace Question

/-- What a question is answered with. -/
@[reducible]
def Answer : Question → Type
  | property _ _ => EvaluatedCondition
  | _ => Bool

/-- The answer to a question. -/
def answer (index : Index) : (question : Question) → question.Answer
  | conditions list entities => Condition.allHold list index entities
  | condition one entities => one.holds index entities
  | count one entities => one.holds entities index
  | filter one view => one.admits view index
  | property one view => one.evaluate view index
  | embedded value => PropertyCondition.embeddedHold index value

/-- A question asks only questions of lower rank. -/
@[simp]
def rank : Question → Nat
  | condition _ none => 0
  | conditions _ none => 1
  | embedded _ => 2
  | property _ _ => 3
  | filter _ _ => 4
  | count _ _ => 5
  | condition _ (some _) => 6
  | conditions _ (some _) => 7

end Question

/-! ## Plans -/

/-- What has to be asked for a value.  Questions are not read from a text, so
there are never any tokens. -/
abbrev Inquiry (α : Type) : Type :=
  Plan Question.Answer Unit Empty α

/-- The value is known. -/
def known {α : Type} (value : α) : Inquiry α :=
  .ends (.ok (value, []))

/-- The value depends on the answer to a question. -/
def ask {α : Type} (question : Question) (next : question.Answer → Inquiry α) : Inquiry α :=
  .calls question [] fun answer _ => next answer

/-- Ask for conditions one after the other, up to one that does not hold. -/
def askAll (entities : Option (List Entity)) : List Condition → Inquiry Bool
  | [] => known true
  | first :: rest =>
    ask (.condition first entities) fun holds =>
      if holds then askAll entities rest else known false

/-- Whether an entity has the id and the type that a condition asks for. -/
def isOfKind (condition : EntityCondition) (entity : Entity) : Bool :=
  condition.id.all (· == entity.id) && condition.type.all fun type => entity.type == some type

/-- Whether a count of entities is as a condition asks for. -/
def isEnough (condition : EntityCondition) (count : Nat) : Bool :=
  match condition.count with
  | some range => range.admits count
  | none => 0 < count

/-- Count the entities that fit.  The filter is asked only about entities of the
right id and type. -/
def tally (condition : EntityCondition) : Nat → List Entity → Inquiry Bool
  | count, [] => known (isEnough condition count)
  | count, entity :: rest =>
    if isOfKind condition entity then
      match condition.filter with
      | some filter =>
        ask (.filter filter entity.view) fun admitted =>
          tally condition (if admitted then count + 1 else count) rest
      | none => tally condition (count + 1) rest
    else tally condition count rest

/-- Ask for the outcomes of all conditions of a filter before combining them. -/
def gather (logic : Filter.Logic) (view : Json) :
    List EvaluatedCondition → List PropertyCondition → Inquiry Bool
  | outcomes, [] => known (logic.combine outcomes)
  | outcomes, first :: rest =>
    ask (.property first view) fun outcome => gather logic view (outcomes ++ [outcome]) rest

/-- Check the conditions that a property embeds, or compare its value. -/
def check (index : Index) (condition : PropertyCondition) (actual : Option Json) :
    Inquiry EvaluatedCondition :=
  if condition.operator = .meetsConditions then
    ask (.embedded actual) fun passed =>
      known ⟨condition.label, condition.operator, passed, actual, none⟩
  else
    let expected := condition.expectedValue? index
    known ⟨condition.label, condition.operator,
      PropertyCondition.accepts condition.operator actual expected, actual, expected⟩

/-- How a question is answered. -/
def plan (index : Index) : (question : Question) → List Empty → Inquiry question.Answer
  | .conditions conditions entities, _ => askAll entities conditions
  | .condition (.simple condition) _, _ => known (condition.holds index)
  | .condition (.hasEntity _) none, _ => known false
  | .condition (.hasEntity condition) (some entities), _ => ask (.count condition entities) known
  | .count condition entities, _ => tally condition 0 entities
  | .filter filter view, _ => gather filter.logic view [] filter.conditions
  | .property condition view, _ => check index condition (condition.actualValue? view)
  | .embedded none, _ => known true
  | .embedded (some value), _ =>
    match Json.list? Condition.ofJson? value with
    | some conditions => ask (.conditions conditions none) known
    | none => known false

/-- Questions and their plans; under too low a bound they are given up. -/
def judging (index : Index) : Descent Question.Answer Unit Empty :=
  .ofPlans (plan index) ()

/-! ## Plans ask questions of lower rank -/

/-- The rank of a question, wherever it comes up. -/
def weight (question : Question) (_tokens : List Empty) : Nat :=
  question.rank

/-- A plan asks only questions below a limit, and always succeeds. -/
def Below {α : Type} (limit : Nat) (inquiry : Inquiry α) : Prop :=
  ∀ here, inquiry.Forward weight (fun _ _ => False) limit here

section Below

variable {α : Type} {limit : Nat}

theorem below_known (value : α) : Below limit (known value) :=
  fun _ => .read List.nil_suffix

theorem below_ask {question : Question} {next : question.Answer → Inquiry α}
    (lower : question.rank < limit) (below : ∀ answer, Below limit (next answer)) :
    Below limit (ask question next) :=
  fun _ => .calls List.nil_suffix lower fun answer rest _ => below answer rest

theorem below_askAll {entities : Option (List Entity)}
    (lower : ∀ condition, (Question.condition condition entities).rank < limit)
    (conditions : List Condition) : Below limit (askAll entities conditions) := by
  induction conditions with
  | nil => exact below_known true
  | cons first rest inductionHypothesis =>
    refine below_ask (lower first) fun holds => ?_
    cases holds with
    | false => exact below_known false
    | true => exact inductionHypothesis

theorem below_tally (condition : EntityCondition) (entities : List Entity) (count : Nat) :
    Below 5 (tally condition count entities) := by
  induction entities generalizing count with
  | nil => exact below_known _
  | cons entity rest inductionHypothesis =>
    unfold tally
    split
    · cases condition.filter with
      | none => exact inductionHypothesis _
      | some filter => exact below_ask (by simp) fun _ => inductionHypothesis _
    · exact inductionHypothesis _

theorem below_gather (logic : Filter.Logic) (view : Json) (conditions : List PropertyCondition)
    (outcomes : List EvaluatedCondition) : Below 4 (gather logic view outcomes conditions) := by
  induction conditions generalizing outcomes with
  | nil => exact below_known _
  | cons first rest inductionHypothesis =>
    exact below_ask (by simp) fun _ => inductionHypothesis _

theorem below_check (index : Index) (condition : PropertyCondition) (actual : Option Json) :
    Below 3 (check index condition actual) := by
  unfold check
  split
  · exact below_ask (by simp) fun _ => below_known _
  · exact below_known _

theorem below_plan (index : Index) (question : Question) (tokens : List Empty) :
    Below question.rank (plan index question tokens) := by
  cases question with
  | conditions conditions entities =>
    cases entities with
    | none => exact below_askAll (fun _ => by simp) conditions
    | some entities => exact below_askAll (fun _ => by simp) conditions
  | condition condition entities =>
    cases condition with
    | simple => exact below_known _
    | hasEntity condition =>
      cases entities with
      | none => exact below_known _
      | some entities => exact below_ask (by simp) below_known
  | count condition entities => exact below_tally condition entities 0
  | filter filter view => exact below_gather filter.logic view filter.conditions []
  | property condition view => exact below_check index condition _
  | embedded value =>
    cases value with
    | none => exact below_known _
    | some value =>
      rw [plan]
      split
      · exact below_ask (by simp) below_known
      · exact below_known _

end Below

theorem judging_forward (index : Index) :
    (judging index).Forward weight (fun _ _ => False) where
  plan question tokens := below_plan index question tokens tokens
  carries _ := id

/-! ## The answers agree with the plans -/

/-- Every question is answered by what the definitions compute. -/
def computed (index : Index) (question : Question) (_tokens : List Empty) :
    Except Unit (question.Answer × List Empty) :=
  .ok (question.answer index, [])

section Agrees

variable (index : Index)

theorem carriedOut_askAll (entities : Option (List Entity)) (conditions : List Condition) :
    (askAll entities conditions).carriedOut (computed index) =
      .ok (Condition.allHold conditions index entities, []) := by
  induction conditions with
  | nil => rfl
  | cons first rest inductionHypothesis =>
    change (if first.holds index entities = true then askAll entities rest
      else known false).carriedOut (computed index) = _
    rw [Condition.allHold, List.all_cons]
    cases first.holds index entities with
    | false => rfl
    | true => exact inductionHypothesis

theorem fits_eq (condition : EntityCondition) (entity : Entity) :
    condition.fits entity index =
      (isOfKind condition entity &&
        condition.filter.all fun filter => filter.admits entity.view index) := rfl

theorem carriedOut_tally (condition : EntityCondition) (entities : List Entity) (count : Nat) :
    (tally condition count entities).carriedOut (computed index) =
      .ok (isEnough condition
        (count + entities.countP fun entity => condition.fits entity index), []) := by
  induction entities generalizing count with
  | nil => rfl
  | cons entity rest inductionHypothesis =>
    have counted : (count + (entity :: rest).countP fun other => condition.fits other index) =
        (if condition.fits entity index then count + 1 else count) +
          rest.countP fun other => condition.fits other index := by
      rw [List.countP_cons]
      split <;> omega
    rw [counted, fits_eq, tally]
    cases isOfKind condition entity with
    | false => exact inductionHypothesis count
    | true =>
      cases condition.filter with
      | none => exact inductionHypothesis (count + 1)
      | some filter => exact inductionHypothesis _

theorem carriedOut_gather (logic : Filter.Logic) (view : Json)
    (conditions : List PropertyCondition) (outcomes : List EvaluatedCondition) :
    (gather logic view outcomes conditions).carriedOut (computed index) =
      .ok (logic.combine
        (outcomes ++ conditions.map fun condition => condition.evaluate view index), []) := by
  induction conditions generalizing outcomes with
  | nil =>
    rw [List.map_nil, List.append_nil]
    rfl
  | cons first rest inductionHypothesis =>
    rw [List.map_cons, List.append_cons]
    exact inductionHypothesis _

theorem carriedOut_check (condition : PropertyCondition) (view : Json) :
    (check index condition (condition.actualValue? view)).carriedOut (computed index) =
      .ok (condition.evaluate view index, []) := by
  unfold check PropertyCondition.evaluate
  split <;> rfl

/-- What is computed is what the plan of each question comes to. -/
theorem carriedOut_plan (question : Question) (tokens : List Empty) :
    (plan index question tokens).carriedOut (computed index) = computed index question tokens := by
  cases question with
  | conditions conditions entities => exact carriedOut_askAll index entities conditions
  | condition condition entities =>
    cases condition with
    | simple => rfl
    | hasEntity condition => cases entities <;> rfl
  | count condition entities =>
    refine (carriedOut_tally index condition entities 0).trans ?_
    rw [Nat.zero_add]
    rfl
  | filter filter view => exact carriedOut_gather index filter.logic view filter.conditions []
  | property condition view => exact carriedOut_check index condition view
  | embedded value =>
    cases value with
    | none => rfl
    | some value =>
      rw [plan, computed, Question.answer, PropertyCondition.embeddedHold_some]
      cases Json.list? Condition.ofJson? value <;> rfl

end Agrees

/-! ## Conditions embedded at a field -/

/-- What is found at a field is satisfied without entities: it is missing or
null, or it is a list of conditions, none of them on entities, that all hold. -/
def SatisfiedAlone (index : Index) (found : Option Json) : Prop :=
  found = none ∨ found = some .null ∨
    ∃ value conditions, found = some value ∧
      Json.list? Condition.ofJson? value = some conditions ∧
        (∀ condition, .hasEntity condition ∉ conditions) ∧
          ∀ condition, .simple condition ∈ conditions → condition.holds index = true

/-- Without entities, conditions on entities do not hold and the others hold as
they do anyway. -/
theorem allHold_none_iff {index : Index} {conditions : List Condition} :
    Condition.allHold conditions index none = true ↔
      (∀ condition, .hasEntity condition ∉ conditions) ∧
        ∀ condition, .simple condition ∈ conditions → condition.holds index = true := by
  rw [Condition.allHold, List.all_eq_true]
  constructor
  · intro all
    refine ⟨fun condition member => ?_, fun condition member => all _ member⟩
    exact Bool.false_ne_true (all _ member)
  · rintro ⟨noneCount, all⟩ (condition | condition) member
    · exact all condition member
    · exact absurd member (noneCount condition)

theorem embeddedHold_filter_iff {index : Index} {found : Option Json} :
    PropertyCondition.embeddedHold index (found.filter fun value => !value.isNull) = true ↔
      SatisfiedAlone index found := by
  cases found with
  | none => exact iff_of_true rfl (Or.inl rfl)
  | some value =>
    by_cases isNull : value = .null
    · subst isNull
      exact iff_of_true rfl (Or.inr (Or.inl rfl))
    · have kept : ((some value).filter fun value => !value.isNull) = some value := by
        cases value <;> first | rfl | exact absurd rfl isNull
      rw [kept, PropertyCondition.embeddedHold_some]
      simp only [SatisfiedAlone, reduceCtorEq, Option.some.injEq, isNull, false_or,
        exists_and_left, exists_eq_left']
      cases Json.list? Condition.ofJson? value with
      | none => simp
      | some conditions => simp [allHold_none_iff]

/-- A check of embedded conditions passes if these are satisfied without
entities. -/
theorem passed_evaluate_iff {index : Index} {condition : PropertyCondition} {path : String}
    (atField : condition.field = some path) (embedded : condition.operator = .meetsConditions)
    (view : Json) :
    (condition.evaluate view index).passed = true ↔ SatisfiedAlone index (view.atPath? path) := by
  rw [PropertyCondition.evaluate, if_pos embedded, PropertyCondition.actualValue?, atField]
  exact embeddedHold_filter_iff

/-! ## Judging comes to an end -/

theorem rank_le_seven (question : Question) : question.rank ≤ 7 := by
  cases question with
  | conditions _ entities => cases entities <;> simp
  | condition _ entities => cases entities <;> simp
  | _ => simp

theorem judging_finishes (index : Index) (root : Question) :
    (judging index).Finishes (fun _ _ => False) 7 root [] (.ok (root.answer index, [])) := by
  have forward := judging_forward index
  have finishes := forward.finishes (Nat.lt_succ_self (weight root []))
  rw [forward.run_eq_answer (carriedOut_plan index) (Nat.lt_succ_self _)] at finishes
  exact finishes.mono (rank_le_seven root)

/-- Conditions with entities rank above everything, so none come up within
another question. -/
theorem entities_eq_none_of_nested {index : Index} {root : Question} {level : Nat}
    {conditions : List Condition} {entities : Option (List Entity)}
    (nested : (judging index).Nested (root, []) (level + 1) (.conditions conditions entities, [])) :
    entities = none := by
  cases entities with
  | none => rfl
  | some entities =>
    have shallow := ((judging_forward index).nested nested).2
    change level + 1 + 7 ≤ root.rank at shallow
    have bounded := rank_le_seven root
    omega

/-- Under any bound, a question that is not given up is answered as the
definitions compute. -/
theorem eq_answer_of_reads {index : Index} {question : Question} {outcome : question.Answer}
    {rest : List Empty} (reads : (judging index).Reads question [] outcome rest) :
    outcome = question.answer index := by
  have computed := (judging_forward index).answer_eq_of_reads (carriedOut_plan index) reads
  cases computed
  rfl

/-- Judging a question, with or without entities, comes to an end. -/
structure Settles (index : Index) (root : Question) : Prop where
  /-- Questions nest at most seven deep.  Whatever bound above this is put on
  the nesting, the answer is the one that the definitions compute. -/
  finishes : (judging index).Finishes (fun _ _ => False) 7 root [] (.ok (root.answer index, []))
  /-- Conditions that come up on the way are judged without entities. -/
  alone : ∀ level conditions entities,
    (judging index).Nested (root, []) (level + 1) (.conditions conditions entities, []) →
      entities = none
  /-- A check of the conditions at a field that comes up on the way passes, no
  matter which entities the root has, exactly if they are satisfied without. -/
  checks : ∀ level condition view path outcome rest,
    (judging index).Nested (root, []) level (.property condition view, []) →
      condition.field = some path → condition.operator = .meetsConditions →
        (judging index).Reads (.property condition view) [] outcome rest →
          (outcome.passed = true ↔ SatisfiedAlone index (view.atPath? path))

/-- Judging conditions comes to an end for all conditions, entities and filters,
even where entities embed conditions that count entities by the conditions they
embed.  What decides a check of the conditions at a field are the published
values and nothing else. -/
theorem judging_settles (index : Index) :
    (∀ root, Settles index root) ∧
      ∀ (condition : PropertyCondition) (path : String) (view : Json),
        condition.field = some path → condition.operator = .meetsConditions →
          ((condition.evaluate view index).passed = true ↔
            SatisfiedAlone index (view.atPath? path)) := by
  refine ⟨fun root => ⟨judging_finishes index root, ?_, ?_⟩, ?_⟩
  · intro level conditions entities nested
    exact entities_eq_none_of_nested nested
  · intro level condition view path outcome rest _ atField embedded reads
    rw [eq_answer_of_reads reads]
    exact passed_evaluate_iff atField embedded view
  · intro condition path view atField embedded
    exact passed_evaluate_iff atField embedded view

/-- An entity may embed a condition that counts entities by the conditions they
embed, itself included.  Judging this takes all seven levels and no more. -/
theorem judging_settles_selfCounting :
    let nested : PropertyCondition := .onField "prerequisites" .meetsConditions .null
    let counting : Condition := .hasEntity ⟨none, none, some (.strict .all [nested]), none⟩
    let dodge := (Entity.ofType "dodge" (some "feat")).set "prerequisites"
      (.ofList Condition.toJson [counting])
    let run depth := (judging Index.empty).run depth (.conditions [counting] (some [dodge])) []
    (nested.field = some "prerequisites" ∧ nested.operator = .meetsConditions ∧
        ¬ SatisfiedAlone Index.empty (dodge.view.atPath? "prerequisites")) ∧
      (run 7).isOk = false ∧ ∀ depth, 7 < depth → run depth = .ok (false, []) := by
  intro nested counting dodge run
  have verdict := (judging_settles Index.empty).2 nested "prerequisites" dodge.view rfl rfl
  have settled := ((judging_settles Index.empty).1 (.conditions [counting] (some [dodge]))).finishes
  have answered : Condition.allHold [counting] Index.empty (some [dodge]) = false := by
    decide +kernel
  refine ⟨⟨rfl, rfl, ?_⟩, by decide +kernel, fun depth enough => ?_⟩
  · rw [← verdict]
    decide +kernel
  · exact (settled.settled depth enough).trans (by rw [Question.answer, answered])

end Judging
end CharacterSheet
