import FieldRules.Fault

/-!
# Attempts

What an attempt that is made of others comes to: when it succeeds, and when and how it fails.
-/

namespace FieldRules

variable {ε ε' α β : Type} {x : Except ε α}

/-- Two attempts one after the other succeed if both do. -/
theorem bind_eq_ok_iff {f : α → Except ε β} {b : β} :
    (x >>= f) = .ok b ↔ ∃ a, x = .ok a ∧ f a = .ok b := by
  cases x <;> simp [bind, Except.bind]

theorem map_eq_ok_iff {g : α → β} {b : β} : x.map g = .ok b ↔ ∃ a, x = .ok a ∧ g a = b := by
  cases x <;> simp [Except.map]

theorem mapError_eq_ok_iff {g : ε → ε'} {a : α} : x.mapError g = .ok a ↔ x = .ok a := by
  cases x with
  | error e =>
      show Except.error (g e) = Except.ok a ↔ Except.error e = Except.ok a
      simp
  | ok a' =>
      show Except.ok a' = Except.ok a ↔ Except.ok a' = Except.ok a
      simp

theorem mapError_eq_error_iff {g : ε → ε'} {e : ε'} :
    x.mapError g = .error e ↔ ∃ e', x = .error e' ∧ g e' = e := by
  cases x with
  | error e' =>
      show Except.error (g e') = Except.error e ↔ _
      simp
  | ok a =>
      show Except.ok a = Except.error e ↔ _
      simp

theorem toOption_eq_some_iff {a : α} : x.toOption = some a ↔ x = .ok a := by
  cases x <;> simp [Except.toOption]

end FieldRules
