import FieldRules.Text.Blank
import Mathlib.Data.List.DropRight

/-!
# Trimmed texts

`Trimmed` says what trimming is for without mentioning how it is done: no white space at either
end. Trimming gives such a text (`trimmed_trim`), leaves one alone (`Trimmed.trim_eq`), and only
ever takes characters away (`trim_subset`).
-/

namespace FieldRules.Text

/-- The text neither starts nor ends with white space. -/
def Trimmed (s : List Char) : Prop :=
  (∀ c ∈ s.head?, isBlank c = false) ∧ ∀ c ∈ s.getLast?, isBlank c = false

instance (s : List Char) : Decidable (Trimmed s) := inferInstanceAs (Decidable (_ ∧ _))

theorem trim_eq_rdropWhile (s : List Char) :
    trim s = (s.dropWhile isBlank).rdropWhile isBlank := rfl

/-- A text that is cut at its end starts as it did, if anything is left of it. -/
theorem head?_rdropWhile {p : Char → Bool} {s : List Char} {c : Char}
    (hc : c ∈ (s.rdropWhile p).head?) : c ∈ s.head? := by
  obtain ⟨rest, hrest⟩ := List.rdropWhile_prefix p (l := s)
  rw [← hrest, List.head?_append, Option.mem_def]
  rw [Option.mem_def] at hc
  rw [hc]
  rfl

theorem trimmed_trim (s : List Char) : Trimmed (trim s) := by
  rw [trim_eq_rdropWhile]
  constructor
  · intro c hc
    have hhead : c ∈ (s.dropWhile isBlank).head? := head?_rdropWhile hc
    have hnot := List.head?_dropWhile_not isBlank s
    rw [Option.mem_def] at hhead
    rw [hhead] at hnot
    simpa using hnot
  · intro c hc
    have hne : (s.dropWhile isBlank).rdropWhile isBlank ≠ [] := by
      intro h
      simp [h] at hc
    have hlast := List.rdropWhile_last_not isBlank _ hne
    rw [Option.mem_def, List.getLast?_eq_some_getLast hne, Option.some.injEq] at hc
    rw [hc] at hlast
    simpa using hlast

/-- Trimming leaves a trimmed text alone. -/
theorem Trimmed.trim_eq {s : List Char} (h : Trimmed s) : trim s = s := by
  have hstart : s.dropWhile isBlank = s := by
    rw [List.dropWhile_eq_self_iff]
    intro hl
    have := h.1 (s[0]) (by simp [List.head?_eq_getElem?])
    simp [this]
  rw [trim_eq_rdropWhile, hstart, List.rdropWhile_eq_self_iff]
  intro hne
  have := h.2 (s.getLast hne) (by simp [List.getLast?_eq_some_getLast hne])
  simp [this]

theorem trim_eq_self_iff {s : List Char} : trim s = s ↔ Trimmed s := by
  constructor
  · intro h
    rw [← h]
    exact trimmed_trim s
  · exact Trimmed.trim_eq

theorem trim_trim (s : List Char) : trim (trim s) = trim s := (trimmed_trim s).trim_eq

theorem trim_subset (s : List Char) : trim s ⊆ s := by
  intro c hc
  rw [trim_eq_rdropWhile] at hc
  have hstart := (List.rdropWhile_prefix isBlank (l := s.dropWhile isBlank)).subset hc
  exact (List.dropWhile_suffix isBlank).subset hstart

/-! ## White space at the ends -/

/-- White space in front of a text is trimmed away. -/
theorem trim_blanks_append {blanks : List Char} (h : ∀ c ∈ blanks, isBlank c = true) (s : List Char) :
    trim (blanks ++ s) = trim s := by
  rw [trim_eq_rdropWhile, trim_eq_rdropWhile, List.dropWhile_append_of_pos h]

/-- White space behind a text is trimmed away. -/
theorem trim_append_blanks {blanks : List Char} (h : ∀ c ∈ blanks, isBlank c = true) (s : List Char) :
    trim (s ++ blanks) = trim s := by
  have hgone : blanks.dropWhile isBlank = [] := List.dropWhile_eq_nil_iff.mpr h
  have hback : ∀ c ∈ blanks.reverse, isBlank c = true := by
    intro c hc
    exact h c (List.mem_reverse.mp hc)
  rw [trim_eq_rdropWhile, trim_eq_rdropWhile, List.dropWhile_append]
  split
  · -- Nothing but white space stands in front either, so nothing is left of both.
    rename_i hnone
    rw [List.isEmpty_iff.mp hnone, hgone]
  · rw [List.rdropWhile, List.rdropWhile, List.reverse_append, List.dropWhile_append_of_pos hback]

/-- A text is what trimming leaves of it with white space around. -/
theorem exists_blanks_around (s : List Char) : ∃ front back : List Char,
    (∀ c ∈ front, isBlank c = true) ∧ (∀ c ∈ back, isBlank c = true) ∧ s = front ++ trim s ++ back := by
  refine ⟨s.takeWhile isBlank, (s.dropWhile isBlank).rtakeWhile isBlank, ?_, ?_, ?_⟩
  · intro c hc
    exact List.mem_takeWhile_imp hc
  · intro c hc
    exact List.mem_rtakeWhile_imp hc
  · rw [trim_eq_rdropWhile, List.append_assoc, List.rdropWhile_append_rtakeWhile,
      List.takeWhile_append_dropWhile]

/-! ## Joined texts -/

theorem intercalate_cons_cons_singleton (sep : Char) (l m : List Char) (ls : List (List Char)) :
    [sep].intercalate (l :: m :: ls) = l ++ sep :: [sep].intercalate (m :: ls) := by
  simp [List.intercalate_cons_cons]

/-- A joined text holds nothing but the separator and what its parts hold. -/
theorem mem_intercalate {sep c : Char} {ls : List (List Char)} (h : c ∈ [sep].intercalate ls) :
    c = sep ∨ ∃ l ∈ ls, c ∈ l := by
  induction ls with
  | nil => simp at h
  | cons l ls ih =>
      cases ls with
      | nil => exact Or.inr ⟨l, by simp, by simpa using h⟩
      | cons m ls =>
          rw [intercalate_cons_cons_singleton, List.mem_append, List.mem_cons] at h
          rcases h with h | h | h
          · exact Or.inr ⟨l, by simp, h⟩
          · exact Or.inl h
          · rcases ih h with h | ⟨k, hk, hc⟩
            · exact Or.inl h
            · exact Or.inr ⟨k, List.mem_cons_of_mem l hk, hc⟩

/-- What stands around something that is no white space is trimmed exactly if it is so where the whole
starts and ends. -/
theorem trimmed_append_cons_iff {sep : Char} (hsep : isBlank sep = false) {l s : List Char} :
    Trimmed (l ++ sep :: s) ↔
      (∀ c ∈ l.head?, isBlank c = false) ∧ ∀ c ∈ s.getLast?, isBlank c = false := by
  unfold Trimmed
  rw [List.head?_append, List.head?_cons, List.getLast?_append, List.getLast?_cons, Option.some_or]
  cases l.head? <;> cases s.getLast? <;> simp [hsep]

/-- Trimmed texts that are joined by something that is no white space make a trimmed text, also
when some of them are empty. -/
theorem Trimmed.intercalate {sep : Char} {ls : List (List Char)} (hsep : isBlank sep = false)
    (h : ∀ l ∈ ls, Trimmed l) : Trimmed ([sep].intercalate ls) := by
  induction ls with
  | nil => constructor <;> simp
  | cons l ls ih =>
      have hl := h l (by simp)
      cases ls with
      | nil => simpa using hl
      | cons m ls =>
          have hrest := ih fun k hk => h k (List.mem_cons_of_mem l hk)
          rw [intercalate_cons_cons_singleton, trimmed_append_cons_iff hsep]
          exact ⟨hl.1, hrest.2⟩

end FieldRules.Text
