import CharacterSheet.Change.Compilation
import CharacterSheet.Proofs.Condition.Reads

/-!
# Content that reads no published values

Content reads published values through the formulas of its changes and
definitions and through the conditions of its changes.  If none of these names
a key, the content means the same on every index.  The variables that spell
tracks give rise to never name a key, because their formulas are plain numbers
written out.
-/

namespace CharacterSheet

namespace Formula

theorem keysIn_eq_nil {text : List Char} (plain : '@' ∉ text) : keysIn text = [] := by
  induction text with
  | nil => rfl
  | cons first rest inductionHypothesis =>
    have different : first ≠ '@' := fun same => plain (same ▸ List.mem_cons_self)
    rw [keysIn, inductionHypothesis (fun later => plain (List.mem_cons_of_mem _ later))]
    simp [different]

theorem evaluate_of_keyFree {formula : Formula} (free : formula.references = [])
    (first second : Index) : formula.evaluate first = formula.evaluate second :=
  evaluate_congr fun _ refers => absurd (free ▸ refers) List.not_mem_nil

end Formula

namespace Numeric

theorem at_not_mem_zeros (count : Nat) : '@' ∉ (Layout.zeros count).toList := by
  rw [Layout.zeros, String.toList_ofList, List.mem_replicate]
  exact fun zero => absurd zero.2 (by decide)

/-- Digits with a point somewhere are no reference. -/
theorem at_not_mem_writeInFull (layout : Layout) (mark : '@' ∉ layout.wholeMark.toList)
    {digits : List Char} (plain : '@' ∉ digits) (exponent : Int) :
    '@' ∉ (layout.writeInFull digits exponent).toList := by
  have part : ∀ {written : List Char}, written ⊆ digits →
      '@' ∉ (String.ofList written).toList := by
    intro written subset member
    rw [String.toList_ofList] at member
    exact plain (subset member)
  unfold Layout.writeInFull
  cases exponent with
  | ofNat up =>
    simp only [String.toList_append, List.mem_append, not_or]
    exact ⟨⟨part (List.Subset.refl _), at_not_mem_zeros up⟩, mark⟩
  | negSucc down =>
    dsimp only
    split
    · simp only [String.toList_append, List.mem_append, not_or]
      exact ⟨⟨part (List.take_subset _ _), by decide⟩, part (List.drop_subset _ _)⟩
    · simp only [String.toList_append, List.mem_append, not_or]
      exact ⟨⟨by decide, at_not_mem_zeros _⟩, part (List.Subset.refl _)⟩

theorem at_not_mem_plainText (x : Float) : '@' ∉ (plainText x).toList := by
  have digits : ∀ decimal : Decimal, '@' ∉ decimal.digits := fun decimal member =>
    absurd (Nat.isDigit_of_mem_toDigits (by decide) (by decide) member) (by decide)
  unfold plainText
  split
  · decide
  split
  · unfold Layout.write
    dsimp only
    have magnitude := at_not_mem_writeInFull plainLayout (by decide)
      (digits (Decimal.ofFloat plainLayout.halfUp x.abs))
      (Decimal.ofFloat plainLayout.halfUp x.abs).exponent
    have inFull : ∀ leading, plainLayout.isPositional leading = true := fun _ => rfl
    rw [if_pos (inFull _)]
    split
    · rw [String.toList_append, List.mem_append, not_or]
      exact ⟨by decide, magnitude⟩
    · exact magnitude
  · split <;> decide

end Numeric

namespace Change

/-- The keys that the formula and the conditions of a change name, given the
entities that a character has. -/
def keys (entities : List Entity) (change : Change) : List String :=
  change.formula.references ++ change.conditions.flatMap (·.keys entities)

variable {change : Change} {entities : List Entity} (free : change.keys entities = [])

include free

theorem references_of_keyFree : change.formula.references = [] :=
  (List.append_eq_nil_iff.mp free).1

theorem keys_of_keyFree : ∀ condition ∈ change.conditions, condition.keys entities = [] :=
  List.flatMap_eq_nil_iff.mp (List.append_eq_nil_iff.mp free).2

end Change

namespace SpecialChange

def formulas : SpecialChange → List Formula
  | customVariable definition => definition.sources.map (·.formula)
  | spellTracks _ => []
  | resource definition =>
    [definition.maximum, definition.minimum, definition.chargesPerUse, definition.recharge] ++
      definition.initial.toList

/-- The keys that the formulas of a definition name. -/
def keys (special : SpecialChange) : List String :=
  special.formulas.flatMap Formula.references

end SpecialChange

namespace Content

/-- The keys that content names. -/
def keys (entities : List Entity) (content : Content) : List String :=
  (content.changes ++ content.contextual.flatMap (·.changes)).flatMap (Change.keys entities) ++
    content.special.flatMap SpecialChange.keys

end Content

namespace Character

/-- No active content of the character names a key. -/
def KeyFree (character : Character) : Prop :=
  ∀ content ∈ character.contents character.entities, content.keys character.entities = []

end Character

/-! ## Fewer entities name fewer keys -/

namespace EntityCondition

theorem keys_subset {condition : EntityCondition} {fewer all : List Entity} (within : fewer ⊆ all) :
    condition.keys fewer ⊆ condition.keys all := by
  intro key member
  rcases List.mem_flatMap.mp member with ⟨entity, listed, reads⟩
  have fits := List.mem_filter.mp listed
  exact List.mem_flatMap.mpr ⟨entity, List.mem_filter.mpr ⟨within fits.1, fits.2⟩, reads⟩

end EntityCondition

namespace Change

theorem keys_subset {change : Change} {fewer all : List Entity} (within : fewer ⊆ all) :
    change.keys fewer ⊆ change.keys all := by
  intro key member
  rcases List.mem_append.mp member with inFormula | inConditions
  · exact List.mem_append_left _ inFormula
  · rcases List.mem_flatMap.mp inConditions with ⟨condition, listed, reads⟩
    refine List.mem_append_right _ (List.mem_flatMap.mpr ⟨condition, listed, ?_⟩)
    cases condition with
    | simple condition => exact reads
    | hasEntity condition => exact EntityCondition.keys_subset within reads

end Change

end CharacterSheet
