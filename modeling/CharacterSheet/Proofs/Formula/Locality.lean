import CharacterSheet.Proofs.Formula.References
import CharacterSheet.Proofs.Index.Publishing

/-!
# What a formula does not notice

A formula has the same value on any two indexes that give its references the
same values, where a key that is not published counts as zero.  Publishing a
value changes what is read under its own key only, and there only if nothing is
published yet.  So a formula does not notice what is published under a key that
it does not refer to, and neither a zero under a key that had no value.
-/

namespace CharacterSheet

namespace Index

/-- What is read under a key once a value is published. -/
theorem value_publishOrKeep (index : Index) (key wanted : String) (value : Float) :
    (index.publishOrKeep key value).value wanted =
      if wanted = key ∧ index.contains key = false then Numeric.orZero value
      else index.value wanted := by
  rw [Index.value, get?_publishOrKeep, Index.value, contains]
  by_cases same : wanted = key
  · subst same
    cases known : index.get? wanted with
    | none => rw [if_pos rfl, if_pos ⟨rfl, rfl⟩, Option.none_or, Option.getD_some]
    | some existing =>
      have present : ¬ (wanted = wanted ∧ (some existing).isSome = false) :=
        fun absent => Bool.false_ne_true absent.2.symm
      rw [if_pos rfl, if_neg present, Option.some_or]
  · rw [if_neg same, if_neg (fun both => same both.1), Option.or_none]

end Index

namespace Formula

/-- A value goes unnoticed if its key is no reference of the formula, and also
if the key had no value and now has the zero that it counted as before. -/
theorem evaluate_publishOrKeep {formula : Formula} {index : Index} {key : String}
    {value : Float} (unnoticed : key ∈ formula.references → Numeric.orZero value = 0) :
    formula.evaluate (index.publishOrKeep key value) = formula.evaluate index := by
  apply evaluate_congr
  intro wanted reference
  rw [Index.value_publishOrKeep]
  split
  · rename_i fresh
    rcases fresh with ⟨rfl, absent⟩
    have unpublished : index.get? wanted = none := Option.not_isSome_iff_eq_none.mp
      fun published => Bool.false_ne_true (absent.symm.trans published)
    rw [unnoticed reference, Index.value, unpublished, Option.getD_none]
  · rfl

/-- A formula reads nothing but its references: its value is the same wherever
they have the same values.  In particular it does not change when another key is
published, nor when zero is, be it under a key that was absent. -/
theorem evaluate_reads_references (formula : Formula) :
    (∀ first second : Index,
      (∀ key ∈ formula.references, first.value key = second.value key) →
        formula.evaluate first = formula.evaluate second) ∧
    (∀ (index : Index) (key : String) (value : Float), key ∉ formula.references →
      formula.evaluate (index.publishOrKeep key value) = formula.evaluate index) ∧
    (∀ (index : Index) (key : String),
      formula.evaluate (index.publishOrKeep key 0) = formula.evaluate index) := by
  refine ⟨fun _ _ agree => evaluate_congr agree, ?_, ?_⟩
  · intro index key value unread
    exact evaluate_publishOrKeep fun reference => absurd reference unread
  · intro index key
    exact evaluate_publishOrKeep fun _ => by decide

end Formula
end CharacterSheet
