import FieldRules.Proofs.Bag.Order
import FieldRules.Proofs.Text.Sorted
import Mathlib.Data.Fintype.EquivFin

/-!
# Fields inside and outside an order

An order without repetition lists the entries of its fields one field after the other and leaves what
belongs to no field of it for the end (`sorted_by_places`). In an order that repeats a name the fields
outside it have the number of different names for their rank, while a name ranks by its last place, which
can be further back. `ListedFirst` asks that nothing outside the order comes before a field of it, and
`unlisted_last_iff` says for which bags and for which orders this holds of the sorted bag.
-/

namespace FieldRules.Bag

/-! ## An order without repetition -/

/-- Sorting a second time changes nothing. -/
@[simp] theorem sortByFields_sortByFields (b : Bag) (order : List String) :
    (b.sortByFields order).sortByFields order = b.sortByFields order := by
  rw [sortByFields, List.mergeSort_of_pairwise]
  simpa using b.sortByFields_pairwise order

/-- A bag sorted by an order without repetition has the entries field after field as in the order and then
those of no field of it, each group as it was. Nothing is lost or doubled, the messages of a field stay in
order, and the bag stays as it is when it is sorted again. -/
theorem sorted_by_places (b : Bag) {order : List String} (h : order.Nodup) :
    (b.sortByFields order).entries =
      order.flatMap b.entriesOf ++ b.entries.filter (fun x => !order.contains x.field) ∧
    (b.sortByFields order).entries.Perm b.entries ∧
    (∀ f, (b.sortByFields order).collect f = b.collect f) ∧
    (b.sortByFields order).sortByFields order = b.sortByFields order := by
  have hcollect : ∀ f, (b.sortByFields order).collect f = b.collect f := by
    intro f
    rw [collect, collect, entriesOf_sortByFields]
  exact ⟨b.entries_sortByFields h, b.sortByFields_perm order, hcollect,
    b.sortByFields_sortByFields order⟩

/-- Two fields in the order and one outside. -/
theorem sorted_by_places_form :
    let b : Bag :=
      ⟨[⟨"mail", "m", none⟩, ⟨"old", "o", none⟩, ⟨"name", "n", none⟩, ⟨"mail", "k", none⟩]⟩
    ["name", "mail"].Nodup ∧
      (b.sortByFields ["name", "mail"]).entries =
        [⟨"name", "n", none⟩, ⟨"mail", "m", none⟩, ⟨"mail", "k", none⟩, ⟨"old", "o", none⟩] := by
  intro b
  have hnodup : ["name", "mail"].Nodup := by decide
  obtain ⟨hentries, -⟩ := sorted_by_places b hnodup
  exact ⟨hnodup, hentries⟩

/-! ## Pairs of entries -/

/-- Of two different members of a list one comes before the other. -/
theorem pair_sublist_or {α : Type} {l : List α} {x y : α} (hx : x ∈ l) (hy : y ∈ l) (h : x ≠ y) :
    [x, y].Sublist l ∨ [y, x].Sublist l := by
  obtain ⟨before, after, rfl⟩ := List.append_of_mem hx
  rw [List.mem_append, List.mem_cons] at hy
  rcases hy with hy | rfl | hy
  · right
    exact (List.singleton_sublist.mpr hy).append (List.singleton_sublist.mpr List.mem_cons_self)
  · exact absurd rfl h
  · left
    exact ((List.singleton_sublist.mpr hy).cons_cons x).trans (List.sublist_append_right before _)

/-- Entries of one rank stand in the sorted bag as they stood before. -/
theorem pair_sublist_of_sorted {b : Bag} {order : List String} {x y : Entry}
    (hxy : rank order x.field = rank order y.field)
    (h : [x, y].Sublist (b.sortByFields order).entries) : [x, y].Sublist b.entries := by
  have hpair := h.filter fun e => rank order e.field == rank order y.field
  rw [filter_sortByFields] at hpair
  · have hkept : [x, y].filter (fun e => rank order e.field == rank order y.field) = [x, y] := by
      simp [hxy]
    rw [hkept] at hpair
    exact hpair.trans List.filter_sublist
  · intro u v hu hv
    rw [beq_iff_eq] at hu hv
    omega

/-- Sorting turns two entries around exactly if the one behind has the lower rank. So a relation holds along
the sorted bag exactly if it holds, for the entries in order, of each two that keep their places and, the
other way round, of each two that change them. -/
theorem pairwise_sortByFields_iff {b : Bag} {order : List String} {R : Entry → Entry → Prop} :
    (b.sortByFields order).entries.Pairwise R ↔
      b.entries.Pairwise fun x y =>
        (rank order x.field ≤ rank order y.field → R x y) ∧
        (rank order y.field < rank order x.field → R y x) := by
  have hsorted : ∀ {x y}, [x, y].Sublist (b.sortByFields order).entries →
      rank order x.field ≤ rank order y.field :=
    List.pairwise_iff_forall_sublist.mp (b.sortByFields_pairwise order)
  have hmem : ∀ {x}, x ∈ (b.sortByFields order).entries ↔ x ∈ b.entries :=
    (b.sortByFields_perm order).mem_iff
  rw [List.pairwise_iff_forall_sublist, List.pairwise_iff_forall_sublist]
  constructor
  · -- Two entries in the old order: the sort keeps them so unless the one behind ranks lower.
    intro hR x y hxy
    have hx := hmem.mpr (hxy.subset List.mem_cons_self)
    have hy := hmem.mpr (hxy.subset (List.mem_cons_of_mem x List.mem_cons_self))
    constructor
    · intro hle
      apply hR
      exact List.pair_sublist_mergeSort (rank_le_trans order) (rank_le_total order)
        (by simpa using hle) hxy
    · intro hlt
      have hne : x ≠ y := by
        rintro rfl
        omega
      rcases pair_sublist_or hx hy hne with hsame | hturned
      · have := hsorted hsame
        omega
      · exact hR hturned
  · -- Two entries in the new order: those of one rank, which are not told apart, stood so before.
    intro hR x y hxy
    have hle := hsorted hxy
    have hx := hmem.mp (hxy.subset List.mem_cons_self)
    have hy := hmem.mp (hxy.subset (List.mem_cons_of_mem x List.mem_cons_self))
    rcases Nat.eq_or_lt_of_le hle with heq | hlt
    · exact (hR (pair_sublist_of_sorted heq hxy)).1 hle
    · have hne : x ≠ y := by
        rintro rfl
        omega
      rcases pair_sublist_or hx hy hne with hsame | hturned
      · exact (hR hsame).1 hle
      · exact (hR hturned).2 hlt

/-! ## An order with repetitions -/

/-- No entry of a field outside the order comes before one of a field of the order. -/
def ListedFirst (order : List String) (es : List Entry) : Prop :=
  es.Pairwise fun x y => y.field ∈ order → x.field ∈ order

/-- Every place of a name in the order is before a given one. -/
def PlacesBefore (n : Nat) (order : List String) (name : String) : Prop :=
  ∀ i : Nat, order[i]? = some name → i < n

theorem length_eraseDups (order : List String) : order.eraseDups.length = order.toFinset.card := by
  have hsame : order.eraseDups.toFinset = order.toFinset := by
    ext name
    simp [List.mem_eraseDups]
  rw [← hsame, List.toFinset_card_of_nodup (nodup_eraseDups order)]

theorem rank_of_notMem {order : List String} {f : String} (h : f ∉ order) :
    rank order f = order.toFinset.card := by
  rw [rank, lastPlace?_eq_none_iff.mpr h, Option.getD_none, length_eraseDups]

/-- A name of the order ranks before a place exactly if it stands nowhere else than before it. -/
theorem rank_lt_iff {order : List String} {f : String} (h : f ∈ order) {n : Nat} :
    rank order f < n ↔ PlacesBefore n order f := by
  cases hplace : lastPlace? order f with
  | none => exact absurd h (lastPlace?_eq_none_iff.mp hplace)
  | some i =>
      obtain ⟨hi, hlast⟩ := lastPlace?_eq_some_iff.mp hplace
      rw [rank, hplace, Option.getD_some]
      constructor
      · intro hlt j hj
        exact lt_of_le_of_lt (hlast j hj) hlt
      · intro hplaces
        exact hplaces i hi

theorem PlacesBefore.of_length {n : Nat} {order : List String} (h : order.length ≤ n) (name : String) :
    PlacesBefore n order name := by
  intro i hi
  have hlt := (List.getElem?_eq_some_iff.mp hi).1
  omega

/-- What comes first after sorting, read off the bag as it was: a listed entry in front of an unlisted one
stays there up to the common rank of the unlisted ones, one behind it has to come before that rank. -/
theorem listedFirst_sortByFields_iff {b : Bag} {order : List String} :
    ListedFirst order (b.sortByFields order).entries ↔
      b.entries.Pairwise fun x y =>
        (x.field ∈ order → y.field ∉ order → PlacesBefore (order.toFinset.card + 1) order x.field) ∧
        (x.field ∉ order → y.field ∈ order → PlacesBefore order.toFinset.card order y.field) := by
  rw [ListedFirst, pairwise_sortByFields_iff]
  refine List.Pairwise.iff fun x y => ?_
  -- Only a listed and an unlisted entry can come in the wrong order.
  by_cases hx : x.field ∈ order <;> by_cases hy : y.field ∈ order
  · simp [hx, hy]
  · have hplaces : rank order x.field ≤ order.toFinset.card ↔
        PlacesBefore (order.toFinset.card + 1) order x.field := by
      rw [← rank_lt_iff hx, Nat.lt_succ_iff]
    simp [hx, hy, rank_of_notMem hy, hplaces]
  · simp [hx, hy, rank_of_notMem hx, ← rank_lt_iff hy]
  · simp [hx, hy]

/-- Every bag has the listed fields first exactly if the order repeats no name. -/
theorem listedFirst_iff_nodup {order : List String} :
    (∀ b : Bag, ListedFirst order (b.sortByFields order).entries) ↔ order.Nodup := by
  constructor
  · intro hfirst
    rcases List.eq_nil_or_concat' order with rfl | ⟨front, last, rfl⟩
    · exact List.nodup_nil
    · -- A field that is not in the order, and behind it the field whose place is the last of all.
      obtain ⟨other, hother⟩ := Infinite.exists_notMem_finset (front ++ [last]).toFinset
      rw [List.mem_toFinset] at hother
      have hpair := listedFirst_sortByFields_iff.mp
        (hfirst ⟨[⟨other, "", none⟩, ⟨last, "", none⟩]⟩)
      rw [List.pairwise_pair] at hpair
      have hlast : front.length < (front ++ [last]).toFinset.card :=
        hpair.2 hother (by simp) front.length (by simp)
      have hlength : (front ++ [last]).length ≤ (front ++ [last]).dedup.length := by
        rw [List.card_toFinset] at hlast
        rw [List.length_append, List.length_singleton]
        omega
      rw [← (List.dedup_sublist (front ++ [last])).eq_of_length_le hlength]
      exact List.nodup_dedup _
  · intro hnodup b
    rw [listedFirst_sortByFields_iff]
    have hcard : order.length ≤ order.toFinset.card := (List.toFinset_card_of_nodup hnodup).ge
    apply List.pairwise_of_forall
    intro x y
    exact ⟨fun _ _ => .of_length (Nat.le_succ_of_le hcard) x.field,
      fun _ _ => .of_length hcard y.field⟩

/-- Whatever the order, the entries of the fields outside it stay in order among themselves. They come after
those of the fields in it exactly if no place of a name is too far back, counted against the number of
different names: beyond it for an entry that was in front of one outside, at it or beyond for an entry that
was behind one. All bags are sorted like this exactly if the order repeats no name. -/
theorem unlisted_last_iff (order : List String) :
    (∀ b : Bag,
      (b.sortByFields order).entries.filter (fun x => !order.contains x.field) =
        b.entries.filter (fun x => !order.contains x.field) ∧
      (ListedFirst order (b.sortByFields order).entries ↔
        b.entries.Pairwise fun x y =>
          (x.field ∈ order → y.field ∉ order →
            PlacesBefore (order.toFinset.card + 1) order x.field) ∧
          (x.field ∉ order → y.field ∈ order → PlacesBefore order.toFinset.card order y.field))) ∧
    ((∀ b : Bag, ListedFirst order (b.sortByFields order).entries) ↔ order.Nodup) :=
  ⟨fun b => ⟨b.filter_unlisted_sortByFields order, listedFirst_sortByFields_iff⟩,
    listedFirst_iff_nodup⟩

/-- An order that names a field three times puts it behind one that it does not name. -/
theorem repeated_name_last :
    let b : Bag := ⟨[⟨"title", "t", none⟩, ⟨"draft", "d", none⟩]⟩
    let order := ["title", "title", "title"]
    (b.sortByFields order).entries = [⟨"draft", "d", none⟩, ⟨"title", "t", none⟩] ∧
      ¬ ListedFirst order (b.sortByFields order).entries := by
  intro b order
  have hranks : rank order "draft" < rank order "title" := by decide
  have hsorted : (b.sortByFields order).entries = [⟨"draft", "d", none⟩, ⟨"title", "t", none⟩] := by
    simp [b, sortByFields, List.mergeSort, hranks]
  refine ⟨hsorted, ?_⟩
  rw [hsorted, ListedFirst, List.pairwise_pair]
  decide

end FieldRules.Bag
