import FieldRules.Bag
import Mathlib.Data.List.Infix
import Mathlib.Data.List.Nodup

/-!
# The entries of each field

What removing and adding do to the entries of one field and to those of the others, and `InBlocks`:
the entries of every field stand together in the bag.
-/

namespace FieldRules.Bag

/-! ## Entries of one field -/

theorem mem_entriesOf {b : Bag} {f : String} {x : Entry} :
    x ∈ b.entriesOf f ↔ x ∈ b.entries ∧ x.field = f := by
  simp [entriesOf]

theorem entriesOf_eq_nil_iff {b : Bag} {f : String} :
    b.entriesOf f = [] ↔ ∀ x ∈ b.entries, x.field ≠ f := by
  simp [entriesOf]

@[simp] theorem entriesOf_remove_self (b : Bag) (f : String) : (b.remove f).entriesOf f = [] := by
  rw [entriesOf_eq_nil_iff]
  intro x hx
  have := List.of_mem_filter hx
  simpa using this

theorem entriesOf_remove_of_ne (b : Bag) {f g : String} (h : f ≠ g) :
    (b.remove g).entriesOf f = b.entriesOf f := by
  unfold remove entriesOf
  rw [List.filter_filter]
  apply List.filter_congr
  intro x _
  by_cases hx : x.field = f <;> simp [hx, h]

@[simp] theorem remove_remove_self (b : Bag) (f : String) : (b.remove f).remove f = b.remove f := by
  simp [remove, List.filter_filter]

/-- Adding entries one after the other puts them at the end. -/
theorem entries_foldl_add (b : Bag) (es : List Entry) :
    (es.foldl add b).entries = b.entries ++ es := by
  induction es generalizing b with
  | nil => simp
  | cons e es ih => simp [ih, add]

theorem entriesOf_foldl_add_self (b : Bag) {f : String} {es : List Entry}
    (h : ∀ x ∈ es, x.field = f) : (es.foldl add b).entriesOf f = b.entriesOf f ++ es := by
  have hes : es.filter (·.field == f) = es := by
    rw [List.filter_eq_self]
    intro x hx
    simp [h x hx]
  unfold entriesOf
  rw [entries_foldl_add, List.filter_append, hes]

theorem entriesOf_foldl_add_of_ne (b : Bag) {f g : String} {es : List Entry}
    (h : ∀ x ∈ es, x.field = g) (hfg : f ≠ g) : (es.foldl add b).entriesOf f = b.entriesOf f := by
  have hes : es.filter (·.field == f) = [] := by
    rw [List.filter_eq_nil_iff]
    intro x hx
    simp [h x hx, Ne.symm hfg]
  unfold entriesOf
  rw [entries_foldl_add, List.filter_append, hes, List.append_nil]

/-- Adding entries of a field leaves the others as they are. -/
theorem remove_foldl_add (b : Bag) {f : String} {es : List Entry} (h : ∀ x ∈ es, x.field = f) :
    (es.foldl add b).remove f = b.remove f := by
  have hes : es.filter (·.field != f) = [] := by
    rw [List.filter_eq_nil_iff]
    intro x hx
    simp [h x hx]
  unfold remove
  rw [entries_foldl_add, List.filter_append, hes, List.append_nil]

/-! ## Blocks -/

/-- The entries of every field stand together. -/
def InBlocks (b : Bag) : Prop := ∀ f, b.entriesOf f <:+: b.entries

theorem inBlocks_empty : InBlocks {} := by
  intro f
  simp [entriesOf]

theorem InBlocks.remove {b : Bag} (h : b.InBlocks) (g : String) : (b.remove g).InBlocks := by
  intro f
  by_cases hf : f = g
  · subst hf
    rw [entriesOf_remove_self]
    exact List.nil_infix
  · have hkept : (b.entriesOf f).filter (·.field != g) = b.entriesOf f := by
      rw [List.filter_eq_self]
      intro x hx
      simp [(mem_entriesOf.mp hx).2, hf]
    rw [entriesOf_remove_of_ne b hf, ← hkept]
    exact (h f).filter _

theorem InBlocks.foldl_add {b : Bag} (h : b.InBlocks) {g : String} (hnone : b.entriesOf g = [])
    {es : List Entry} (hes : ∀ x ∈ es, x.field = g) : (es.foldl add b).InBlocks := by
  intro f
  by_cases hf : f = g
  · subst hf
    rw [entriesOf_foldl_add_self b hes, hnone, entries_foldl_add]
    exact ⟨b.entries, [], by simp⟩
  · rw [entriesOf_foldl_add_of_ne b hes hf, entries_foldl_add]
    exact (h f).trans (List.prefix_append b.entries es).isInfix

/-- A bag that lists its fields one after the other is in blocks. -/
theorem inBlocks_of_eq_flatMap {b : Bag} {names : List String}
    (h : b.entries = names.flatMap b.entriesOf) : b.InBlocks := by
  intro f
  by_cases hf : f ∈ names
  · obtain ⟨before, after, rfl⟩ := List.append_of_mem hf
    refine ⟨before.flatMap b.entriesOf, after.flatMap b.entriesOf, ?_⟩
    conv_rhs => rw [h]
    simp
  · have hnone : b.entriesOf f = [] := by
      rw [entriesOf_eq_nil_iff]
      rintro x hx rfl
      rw [h, List.mem_flatMap] at hx
      obtain ⟨n, hn, hx⟩ := hx
      exact hf ((mem_entriesOf.mp hx).2 ▸ hn)
    rw [hnone]
    exact List.nil_infix

/-- What lists entries of different fields one after the other lists each with all its entries. -/
theorem eq_flatMap_entriesOf {b : Bag} {names : List String} (hnodup : names.Nodup)
    {es : String → List Entry} (h : b.entries = names.flatMap es)
    (hes : ∀ n ∈ names, ∀ x ∈ es n, x.field = n) : b.entries = names.flatMap b.entriesOf := by
  have hof : ∀ f ∈ names, b.entriesOf f = es f := by
    intro f hf
    -- A name stands in the list once, so what is listed for the others is not its own.
    obtain ⟨before, after, rfl⟩ := List.append_of_mem hf
    have hother : ∀ n ∈ before ++ after, (es n).filter (·.field == f) = [] := by
      intro n hn
      rw [List.filter_eq_nil_iff]
      intro x hx
      have hnames : n ∈ before ++ f :: after := by
        simp only [List.mem_append, List.mem_cons] at hn ⊢
        tauto
      rw [hes n hnames x hx, beq_iff_eq]
      rintro rfl
      exact (List.nodup_middle.mp hnodup).notMem hn
    have hself : (es f).filter (·.field == f) = es f := by
      rw [List.filter_eq_self]
      intro x hx
      simp [hes f hf x hx]
    have hbefore : (before.flatMap es).filter (·.field == f) = [] := by
      rw [List.filter_flatMap, List.flatMap_eq_nil_iff]
      exact fun n hn => hother n (List.mem_append_left after hn)
    have hafter : (after.flatMap es).filter (·.field == f) = [] := by
      rw [List.filter_flatMap, List.flatMap_eq_nil_iff]
      exact fun n hn => hother n (List.mem_append_right before hn)
    unfold entriesOf
    rw [h, List.flatMap_append, List.flatMap_cons, List.filter_append, List.filter_append, hbefore,
      hself, hafter, List.nil_append, List.append_nil]
  rw [h]
  exact List.flatMap_congr fun f hf => (hof f hf).symm

end FieldRules.Bag
