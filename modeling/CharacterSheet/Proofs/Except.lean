/-!
# Steps that can fail

A sequence of steps succeeds if each of them does, on what the one before it
gives.
-/

namespace CharacterSheet

/-- A sequence of steps succeeds if each step does. -/
theorem bind_eq_ok {ε α β : Type} {first : Except ε α} {next : α → Except ε β} {result : β} :
    (first >>= next) = .ok result ↔ ∃ value, first = .ok value ∧ next value = .ok result := by
  constructor
  · intro succeeds
    cases first with
    | error problem => cases succeeds
    | ok value => exact ⟨value, rfl, succeeds⟩
  · rintro ⟨value, succeeds, follows⟩
    subst succeeds
    exact follows

/-- A sequence of steps fails if its first step does, or what follows does. -/
theorem bind_eq_error {ε α β : Type} {first : Except ε α} {next : α → Except ε β} {problem : ε} :
    (first >>= next) = .error problem ↔
      first = .error problem ∨ ∃ value, first = .ok value ∧ next value = .error problem := by
  constructor
  · intro fails
    cases first with
    | error found =>
      cases fails
      exact Or.inl rfl
    | ok value => exact Or.inr ⟨value, rfl, fails⟩
  · rintro (fails | ⟨value, succeeds, follows⟩)
    · subst fails
      rfl
    · subst succeeds
      exact follows

theorem bind_pair {ε α β : Type} (step : Except ε (α × β)) :
    (step >>= fun read => .ok (read.1, read.2)) = step := by
  cases step <;> rfl

end CharacterSheet
