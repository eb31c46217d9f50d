import FieldRules.Proofs.Bag.Blocks
import Mathlib.Data.List.Basic
import Mathlib.Data.List.Sort

/-!
# Sorting a bag by fields

Sorting is stable (`filter_sortByFields`): entries that have the same rank stay in order, so the
entries of one field are not touched. For an order without repetition the sorted bag is spelled out
(`entries_sortByFields`): field after field as in the order, and at the end whatever belongs to no
field of the order.
-/

namespace FieldRules.Bag

/-! ## Ranks -/

theorem lastPlace?_concat (order : List String) (n f : String) :
    lastPlace? (order ++ [n]) f = if n = f then some order.length else lastPlace? order f := by
  unfold lastPlace?
  rw [List.zipIdx_append, List.reverse_append, List.zipIdx_singleton, List.reverse_singleton,
    List.singleton_append]
  by_cases h : n = f
  · rw [if_pos h, List.find?_cons_of_pos (by simpa using h)]
    simp
  · rw [if_neg h, List.find?_cons_of_neg (by simpa using h)]

theorem lastPlace?_eq_none_iff {order : List String} {f : String} :
    lastPlace? order f = none ↔ f ∉ order := by
  induction order using List.reverseRecOn with
  | nil => simp [lastPlace?]
  | append_singleton order n ih =>
      rw [lastPlace?_concat, List.mem_append, List.mem_singleton]
      by_cases h : n = f
      · simp [h]
      · rw [if_neg h, ih]
        simp [Ne.symm h]

theorem lastPlace?_eq_some_iff {order : List String} {f : String} {i : Nat} :
    lastPlace? order f = some i ↔ order[i]? = some f ∧ ∀ j : Nat, order[j]? = some f → j ≤ i := by
  induction order using List.reverseRecOn with
  | nil => simp [lastPlace?]
  | append_singleton order n ih =>
      rw [lastPlace?_concat]
      by_cases hn : n = f
      · have hend : (order ++ [n])[order.length]? = some f := by simp [hn]
        have hbound : ∀ j : Nat, (order ++ [n])[j]? = some f → j ≤ order.length := by
          intro j hj
          have hlt := (List.getElem?_eq_some_iff.mp hj).1
          rw [List.length_append, List.length_singleton] at hlt
          omega
        rw [if_pos hn, Option.some.injEq]
        constructor
        · rintro rfl
          exact ⟨hend, hbound⟩
        · rintro ⟨hi, hlast⟩
          exact Nat.le_antisymm (hlast order.length hend) (hbound i hi)
      · -- The name at the end is another one, so the places of `f` are those in the rest.
        have hplace : ∀ j : Nat, (order ++ [n])[j]? = some f ↔ order[j]? = some f := by
          intro j
          rw [List.getElem?_append]
          split
          · rfl
          · rw [List.getElem?_singleton, List.getElem?_eq_none (l := order) (by omega)]
            split <;> simp [hn]
        rw [if_neg hn, ih]
        simp only [hplace]

theorem lastPlace?_eq_some {order : List String} (hnodup : order.Nodup) {f : String}
    (h : f ∈ order) : lastPlace? order f = some (order.idxOf f) := by
  refine lastPlace?_eq_some_iff.mpr ⟨List.getElem?_idxOf h, fun j hj => ?_⟩
  obtain ⟨hlt, rfl⟩ := List.getElem?_eq_some_iff.mp hj
  rw [hnodup.idxOf_getElem j hlt]

theorem eraseDups_of_nodup {order : List String} (h : order.Nodup) : order.eraseDups = order := by
  induction order with
  | nil => rfl
  | cons n ns ih =>
      obtain ⟨hn, hns⟩ := List.nodup_cons.mp h
      have hkept : ns.filter (fun m => !m == n) = ns := by
        rw [List.filter_eq_self]
        intro m hm
        simp only [Bool.not_eq_true', beq_eq_false_iff_ne]
        rintro rfl
        exact hn hm
      rw [List.eraseDups_cons, hkept, ih hns]

/-- In an order without repetition the rank of a field is its place, and the length of the order
for a field that is not in it. -/
theorem rank_eq_idxOf {order : List String} (h : order.Nodup) (f : String) :
    rank order f = order.idxOf f := by
  unfold rank
  by_cases hf : f ∈ order
  · rw [lastPlace?_eq_some h hf, Option.getD_some]
  · rw [lastPlace?_eq_none_iff.mpr hf, Option.getD_none, eraseDups_of_nodup h, List.idxOf_eq_length hf]

/-! ## Stability -/

theorem rank_le_trans (order : List String) (x y z : Entry)
    (hxy : decide (rank order x.field ≤ rank order y.field) = true)
    (hyz : decide (rank order y.field ≤ rank order z.field) = true) :
    decide (rank order x.field ≤ rank order z.field) = true := by
  simp only [decide_eq_true_eq] at *
  omega

theorem rank_le_total (order : List String) (x y : Entry) :
    (decide (rank order x.field ≤ rank order y.field) ||
      decide (rank order y.field ≤ rank order x.field)) = true := by
  simp only [Bool.or_eq_true, decide_eq_true_eq]
  omega

theorem sortByFields_perm (b : Bag) (order : List String) :
    (b.sortByFields order).entries.Perm b.entries :=
  List.mergeSort_perm _ _

theorem sortByFields_pairwise (b : Bag) (order : List String) :
    (b.sortByFields order).entries.Pairwise
      fun x y => rank order x.field ≤ rank order y.field := by
  have h : (b.sortByFields order).entries.Pairwise
      fun x y => decide (rank order x.field ≤ rank order y.field) = true :=
    List.pairwise_mergeSort (rank_le_trans order) (rank_le_total order) b.entries
  exact h.imp fun hxy => by simpa using hxy

/-- Entries that all have the same rank keep their order. -/
theorem filter_sortByFields (b : Bag) (order : List String) (p : Entry → Bool)
    (h : ∀ x y, p x → p y → rank order x.field ≤ rank order y.field) :
    (b.sortByFields order).entries.filter p = b.entries.filter p := by
  have hsorted : (b.entries.filter p).Pairwise
      fun x y => decide (rank order x.field ≤ rank order y.field) = true := by
    apply List.pairwise_of_forall_mem_list
    intro x hx y hy
    rw [decide_eq_true_eq]
    exact h x y (List.of_mem_filter hx) (List.of_mem_filter hy)
  have hsub : (b.entries.filter p).Sublist (b.sortByFields order).entries :=
    List.sublist_mergeSort (rank_le_trans order) (rank_le_total order) hsorted List.filter_sublist
  have hfiltered := hsub.filter p
  rw [List.filter_filter] at hfiltered
  simp only [Bool.and_self] at hfiltered
  have hlength := ((b.sortByFields_perm order).filter p).length_eq
  exact (hfiltered.eq_of_length hlength.symm).symm

/-- Sorting does not touch the entries of one field. -/
@[simp] theorem entriesOf_sortByFields (b : Bag) (order : List String) (f : String) :
    (b.sortByFields order).entriesOf f = b.entriesOf f := by
  apply filter_sortByFields
  intro x y hx hy
  rw [beq_iff_eq] at hx hy
  rw [hx, hy]

/-- Sorting does not touch the entries of the fields outside the order: they share one rank. -/
theorem filter_unlisted_sortByFields (b : Bag) (order : List String) :
    (b.sortByFields order).entries.filter (fun x => !order.contains x.field) =
      b.entries.filter (fun x => !order.contains x.field) := by
  apply filter_sortByFields
  intro x y hx hy
  have hx' : x.field ∉ order := by simpa using hx
  have hy' : y.field ∉ order := by simpa using hy
  rw [rank, rank, lastPlace?_eq_none_iff.mpr hx', lastPlace?_eq_none_iff.mpr hy']

/-! ## The sorted bag -/

/-- Of a list in the order of a key, the elements with the least key come first. -/
theorem filter_append_filter_of_pairwise {α : Type} {key : α → Nat} {m : Nat} {l : List α}
    (hsorted : l.Pairwise fun x y => key x ≤ key y) (hleast : ∀ x ∈ l, m ≤ key x) :
    l = l.filter (key · == m) ++ l.filter (key · != m) := by
  induction l with
  | nil => rfl
  | cons x l ih =>
      obtain ⟨hx, hl⟩ := List.pairwise_cons.mp hsorted
      have hrest := ih hl fun y hy => hleast y (List.mem_cons_of_mem x hy)
      by_cases hkey : key x = m
      · simp only [List.filter_cons, hkey, beq_self_eq_true, bne_self_eq_false, if_true]
        rw [List.cons_append, if_neg (by simp), ← hrest]
      · -- Every later key is above the least one too, so nothing is moved.
        have hxm := hleast x List.mem_cons_self
        have habove : ∀ y ∈ x :: l, key y ≠ m := by
          intro y hy
          rcases List.mem_cons.mp hy with rfl | hy
          · exact hkey
          · have := hx y hy
            omega
        have hnone : (x :: l).filter (key · == m) = [] := by
          rw [List.filter_eq_nil_iff]
          intro y hy
          simpa using habove y hy
        have hall : (x :: l).filter (key · != m) = x :: l := by
          rw [List.filter_eq_self]
          intro y hy
          simpa using habove y hy
        rw [hnone, hall, List.nil_append]

/-- A list of entries in the order of their fields' places is its fields' entries one after the
other, and then the rest. -/
theorem eq_flatMap_of_pairwise {order : List String} (hnodup : order.Nodup) {l : List Entry}
    (hsorted : l.Pairwise fun x y => order.idxOf x.field ≤ order.idxOf y.field) :
    l = (order.flatMap fun f => l.filter (·.field == f)) ++
      l.filter (fun x => !order.contains x.field) := by
  induction order generalizing l with
  | nil => simp
  | cons n ns ih =>
      obtain ⟨hn, hns⟩ := List.nodup_cons.mp hnodup
      have hfirst := filter_append_filter_of_pairwise (m := 0) hsorted fun x _ => Nat.zero_le _
      have hzero : ∀ x : Entry, ((n :: ns).idxOf x.field == 0) = (x.field == n) := by
        intro x
        by_cases hx : x.field = n
        · simp [hx]
        · simp [List.idxOf_cons_ne ns (Ne.symm hx), hx]
      simp only [bne, hzero] at hfirst
      -- What belongs to other fields is sorted by the shorter order.
      have hothers : (l.filter fun x => !(x.field == n)).Pairwise
          fun x y => ns.idxOf x.field ≤ ns.idxOf y.field := by
        apply (hsorted.filter _).imp_of_mem
        intro x y hx hy hxy
        have hx' : n ≠ x.field := by
          rintro rfl
          simpa using List.of_mem_filter hx
        have hy' : n ≠ y.field := by
          rintro rfl
          simpa using List.of_mem_filter hy
        rw [List.idxOf_cons_ne ns hx', List.idxOf_cons_ne ns hy'] at hxy
        omega
      have hrest := ih hns hothers
      have hfields : (ns.flatMap fun f => (l.filter fun x => !(x.field == n)).filter (·.field == f))
          = ns.flatMap fun f => l.filter (·.field == f) := by
        apply List.flatMap_congr
        intro f hf
        rw [List.filter_filter]
        apply List.filter_congr
        intro x _
        by_cases hx : x.field = f
        · have hfn : f ≠ n := fun h => hn (h ▸ hf)
          simp [hx, hfn]
        · simp [hx]
      have hunlisted : (l.filter fun x => !(x.field == n)).filter (fun x => !ns.contains x.field)
          = l.filter (fun x => !(n :: ns).contains x.field) := by
        rw [List.filter_filter]
        apply List.filter_congr
        intro x _
        by_cases hx : x.field = n <;> simp [hx]
      rw [hfields, hunlisted] at hrest
      rw [List.flatMap_cons, List.append_assoc, ← hrest]
      exact hfirst

/-- A bag sorted by an order without repetition: field after field as in the order, and then the
entries of all other fields, each group as it was. -/
theorem entries_sortByFields (b : Bag) {order : List String} (h : order.Nodup) :
    (b.sortByFields order).entries =
      order.flatMap b.entriesOf ++ b.entries.filter (fun x => !order.contains x.field) := by
  have hsorted := b.sortByFields_pairwise order
  simp only [rank_eq_idxOf h] at hsorted
  have hfields : (order.flatMap fun f => (b.sortByFields order).entries.filter (·.field == f))
      = order.flatMap b.entriesOf := by
    apply List.flatMap_congr
    intro f _
    exact b.entriesOf_sortByFields order f
  rw [eq_flatMap_of_pairwise h hsorted, hfields, filter_unlisted_sortByFields]

/-- If every entry belongs to a field of the order, the sorted bag lists field after field. -/
theorem entries_sortByFields_of_listed {b : Bag} {order : List String} (h : order.Nodup)
    (hlisted : ∀ x ∈ b.entries, x.field ∈ order) :
    (b.sortByFields order).entries = order.flatMap b.entriesOf := by
  have hnone : b.entries.filter (fun x => !order.contains x.field) = [] := by
    rw [List.filter_eq_nil_iff]
    intro x hx
    simp [hlisted x hx]
  rw [b.entries_sortByFields h, hnone, List.append_nil]

end FieldRules.Bag
