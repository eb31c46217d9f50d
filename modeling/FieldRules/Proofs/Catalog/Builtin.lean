import FieldRules.Builtin
import FieldRules.Proofs.Table

/-!
# The validators that everybody has

What the catalog holds at the start, read off its definition: each validator is kept under its own name,
as shared and without messages (`form_of_get?`), and each predicate as a validator
(`validate_of_predicate`). One of them puts its answer off, and none waits for
somebody to open a gate (`answers_itself`).
-/

namespace FieldRules.Builtin

variable {name : String} {d : Definition}

/-- What the catalog has under a name at the start is the definition of this name. -/
theorem definition?_of_get? (h : catalog.get? name = some d) : definition? name = some d := by
  have hmem : (name, d) ∈ catalog.definitions := Table.mem_of_get?_eq_some h
  obtain ⟨n, -, hn⟩ := List.mem_filterMap.mp hmem
  obtain ⟨d', hd', hpair⟩ := Option.map_eq_some_iff.mp hn
  obtain ⟨rfl, rfl⟩ := Prod.mk.inj hpair
  exact hd'

theorem form_of_get? (h : catalog.get? name = some d) :
    d.name = name ∧ d.shared = true ∧ d.messages = [] := by
  obtain ⟨v, -, rfl⟩ := Option.map_eq_some_iff.mp (definition?_of_get? h)
  exact ⟨rfl, rfl, rfl⟩

/-- Every name that is known from the start has its definition in the catalog. -/
theorem get?_eq_definition? (hname : name ∈ names) : catalog.get? name = definition? name :=
  (Table.get?_filterMap definition? names name).trans (if_pos hname)

/-- Under the name of a predicate the catalog has its validator. -/
theorem validate_of_predicate {p : Value → List Value → Except Fault Bool} (h : (name, p) ∈ predicates) :
    (catalog.get? name).map (·.validate) = some (Validator.ofPredicate p) := by
  have hkey : name ∈ Table.keys predicates := List.mem_map_of_mem h
  have hother : name ≠ dimensionsName := by
    rintro rfl
    exact absurd hkey (by decide)
  have hget : Table.get? predicates name = some p := Table.get?_eq_some_of_mem (by decide) h
  rw [get?_eq_definition? (List.mem_append_left _ hkey), definition?, validator?, if_neg hother, hget]
  rfl

/-- No validator that everybody has waits for a gate. -/
theorem answers_itself (h : catalog.get? name = some d) (value : Value) (params : List Value)
    (gate : String) : (d.validate value params).result ≠ .later (.gate gate) := by
  obtain ⟨validate, hvalidate, rfl⟩ := Option.map_eq_some_iff.mp (definition?_of_get? h)
  unfold validator? at hvalidate
  split at hvalidate
  · -- The sizes of images are asked for by a task.
    rw [Option.some.injEq] at hvalidate
    simp [← hvalidate, Checks.dimensions]
  · obtain ⟨p, -, rfl⟩ := Option.map_eq_some_iff.mp hvalidate
    simp only [Validator.ofPredicate]
    cases p value params <;> simp

end FieldRules.Builtin
