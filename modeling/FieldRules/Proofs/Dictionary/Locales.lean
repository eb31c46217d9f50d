import FieldRules.Proofs.Dictionary
import FieldRules.Proofs.Text.Sorted
import Mathlib.Data.List.Permutation

/-!
# The locales of a dictionary in order

The locales can be told in ascending order exactly if they are texts. What is told depends on which
locales there are and not on the order in which they came (`sortedLocales_of_perm`).
-/

namespace FieldRules

/-- The key is a text. -/
def Key.IsText (k : Key) : Prop := ∃ s, k = .text s

namespace Dictionary

theorem mapM_textKey?_eq_some {keys : List Key} {names : List String} :
    keys.mapM textKey? = some names ↔ keys = names.map .text := by
  apply mapM_eq_some_iff
  intro key name
  cases key <;> simp [textKey?]

theorem exists_map_text {keys : List Key} (h : ∀ k ∈ keys, k.IsText) :
    ∃ names : List String, keys = names.map .text := by
  induction keys with
  | nil => exact ⟨[], rfl⟩
  | cons k keys ih =>
      obtain ⟨⟨s, rfl⟩, hrest⟩ := List.forall_mem_cons.mp h
      obtain ⟨names, rfl⟩ := ih hrest
      exact ⟨s :: names, rfl⟩

/-- The names are the locales of a dictionary, each once and in ascending order. -/
structure InOrder (d : Dictionary) (names : List String) : Prop where
  ascending : names.Pairwise (· ≤ ·)
  once : names.Nodup
  same : ∀ s, s ∈ names ↔ d.hasLocale (.text s) = true

variable {d : Dictionary}

/-- Texts can be put in order. -/
theorem sortedLocales_of_texts (hnodup : (Table.keys d.locales).Nodup)
    (h : ∀ l, d.hasLocale l = true → l.IsText) :
    ∃ names, d.sortedLocales = .ok names ∧ d.InOrder names := by
  obtain ⟨names, hnames⟩ := exists_map_text fun l hl => h l (hasLocale_iff_mem_keys.mpr hl)
  refine ⟨sortedTexts names, ?_, pairwise_sortedTexts names, ?_, ?_⟩
  · rw [sortedLocales, mapM_textKey?_eq_some.mpr hnames]
  · rw [hnames] at hnodup
    exact (sortedTexts_perm names).nodup_iff.mpr (List.Nodup.of_map _ hnodup)
  · intro s
    rw [hasLocale_iff_mem_keys, hnames, mem_sortedTexts]
    simp

/-- A key that is no text has no place in the order. -/
theorem sortedLocales_of_not_text {l : Key} (hl : d.hasLocale l = true) (hother : ¬ l.IsText) :
    d.sortedLocales = .error .wrongKind := by
  unfold sortedLocales
  cases hnames : (Table.keys d.locales).mapM textKey? with
  | none => rfl
  | some names =>
      rw [hasLocale_iff_mem_keys, mapM_textKey?_eq_some.mp hnames, List.mem_map] at hl
      obtain ⟨s, -, rfl⟩ := hl
      exact absurd ⟨s, rfl⟩ hother

/-- The order in which locales came makes no difference. -/
theorem sortedLocales_of_perm {d' : Dictionary}
    (h : (Table.keys d.locales).Perm (Table.keys d'.locales)) : d.sortedLocales = d'.sortedLocales := by
  by_cases htexts : ∀ l ∈ Table.keys d.locales, l.IsText
  · obtain ⟨names, hnames⟩ := exists_map_text htexts
    obtain ⟨names', hnames'⟩ := exists_map_text fun l hl => htexts l (h.mem_iff.mpr hl)
    have hinj : Function.Injective Key.text := fun a b hab => Key.text.inj hab
    rw [hnames, hnames', List.map_perm_map_iff hinj] at h
    rw [sortedLocales, sortedLocales, mapM_textKey?_eq_some.mpr hnames,
      mapM_textKey?_eq_some.mpr hnames']
    simp only [sortedTexts_eq_of_perm h]
  · push Not at htexts
    obtain ⟨l, hl, hother⟩ := htexts
    rw [sortedLocales_of_not_text (hasLocale_iff_mem_keys.mpr hl) hother,
      sortedLocales_of_not_text (hasLocale_iff_mem_keys.mpr (h.mem_iff.mp hl)) hother]

end Dictionary

end FieldRules
