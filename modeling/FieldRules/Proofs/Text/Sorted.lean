import FieldRules.Table
import Mathlib.Data.List.Sort

/-!
# Texts in order

Sorting texts gives the same list whatever order they came in, since two texts of which neither comes
before the other are one text. Texts that are all different come out in ascending order
(`pairwise_lt_sortedTexts`).
-/

namespace FieldRules

theorem sortedTexts_perm (xs : List String) : (sortedTexts xs).Perm xs := List.mergeSort_perm xs _

@[simp] theorem mem_sortedTexts {xs : List String} {s : String} : s ∈ sortedTexts xs ↔ s ∈ xs :=
  (sortedTexts_perm xs).mem_iff

theorem pairwise_sortedTexts (xs : List String) : (sortedTexts xs).Pairwise (· ≤ ·) := by
  have hsorted : (sortedTexts xs).Pairwise fun a b => decide (a ≤ b) = true := by
    apply List.pairwise_mergeSort
    · intro a b c
      simpa using String.le_trans
    · intro a b
      simpa using String.le_total a b
  simpa using hsorted

theorem pairwise_lt_sortedTexts {xs : List String} (h : xs.Nodup) : (sortedTexts xs).Pairwise (· < ·) := by
  have hnodup : (sortedTexts xs).Nodup := (sortedTexts_perm xs).nodup_iff.mpr h
  apply (pairwise_sortedTexts xs).imp₂ _ hnodup
  intro a b hle hne
  exact Std.lt_of_le_of_ne hle hne

theorem sortedTexts_of_pairwise {xs : List String} (h : xs.Pairwise (· ≤ ·)) : sortedTexts xs = xs := by
  apply List.mergeSort_of_pairwise
  simpa using h

theorem sortedTexts_eq_of_perm {xs ys : List String} (h : xs.Perm ys) : sortedTexts xs = sortedTexts ys := by
  have hperm : (sortedTexts xs).Perm (sortedTexts ys) :=
    (sortedTexts_perm xs).trans (h.trans (sortedTexts_perm ys).symm)
  apply hperm.eq_of_pairwise _ (pairwise_sortedTexts xs) (pairwise_sortedTexts ys)
  intro a b _ _ hab hba
  exact String.le_antisymm hab hba

theorem nodup_eraseDups (xs : List String) : xs.eraseDups.Nodup := by
  cases xs with
  | nil => simp
  | cons name names =>
      rw [List.eraseDups_cons, List.nodup_cons]
      constructor
      · simp [List.mem_eraseDups]
      · exact nodup_eraseDups (names.filter fun m => !m == name)
termination_by xs.length
decreasing_by exact Nat.lt_succ_of_le (List.length_filter_le _ _)

end FieldRules
