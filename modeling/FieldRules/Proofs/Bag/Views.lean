import FieldRules.Proofs.Bag.Runs
import FieldRules.Proofs.Table
import FieldRules.Proofs.Text.Sorted
import Mathlib.Algebra.GroupWithZero.Nat
import Mathlib.Data.List.Induction

/-!
# The views of a bag

A bag tells the same entries in several ways: all messages, the messages of a field, the first of them, how
many there are, and a table of the messages by field. The views agree (`views_agree`).

The table grows with each entry that is added (`byField_add`), and a bag is what was added to it
(`add_induction`), so what the table answers is shown for one entry more. Its keys are the fields without
repetition in the order of their first entries, and going through the table is going through the bag as
sorted in that order (`flatMap_entriesOf_perm`). A bag in which the entries of each field stand together is
in that order already (`inBlocks_iff`).
-/

namespace FieldRules.Bag

variable {b : Bag} {f : String}

/-- What holds of the empty bag, and of a bag with one entry more, holds of every bag. -/
theorem add_induction {P : Bag → Prop} (hempty : P empty) (hadd : ∀ b e, P b → P (b.add e)) (b : Bag) :
    P b := by
  obtain ⟨es⟩ := b
  induction es using List.reverseRecOn with
  | nil => exact hempty
  | append_singleton es e ih => exact hadd ⟨es⟩ e ih

/-! ## One entry more -/

theorem has_add (b : Bag) (e : Entry) (f : String) :
    (b.add e).has (some f) = (b.has (some f) || e.field == f) := by
  simp [has, add]

theorem collect_add_self (b : Bag) (e : Entry) :
    (b.add e).collect e.field = b.collect e.field ++ [e.message] := by
  simp [collect, entriesOf, add]

theorem collect_add_of_ne (b : Bag) {e : Entry} (h : e.field ≠ f) :
    (b.add e).collect f = b.collect f := by
  simp [collect, entriesOf, add, h]

theorem byField_add (b : Bag) (e : Entry) :
    (b.add e).byField =
      Table.put b.byField e.field ((Table.get? b.byField e.field).getD [] ++ [e.message]) := by
  unfold byField add
  rw [List.foldl_concat]

/-! ## What the table holds -/

theorem has_iff : b.has (some f) = true ↔ ∃ x ∈ b.entries, x.field = f := by
  simp [has]

theorem collect_of_not_has (h : b.has (some f) = false) : b.collect f = [] := by
  have hnone : b.entriesOf f = [] := by
    rw [entriesOf_eq_nil_iff]
    simpa [has] using h
  rw [collect, hnone, List.map_nil]

/-- Under a field that has entries the table holds what is collected of it. -/
theorem get?_byField (b : Bag) (f : String) :
    Table.get? b.byField f = if b.has (some f) then some (b.collect f) else none := by
  induction b using add_induction with
  | hempty => rfl
  | hadd b e ih =>
      rw [byField_add, Table.get?_put, has_add]
      by_cases hf : e.field = f
      · subst hf
        -- What was there before is what was collected, be it nothing.
        have hbefore : (Table.get? b.byField e.field).getD [] = b.collect e.field := by
          rw [ih]
          cases hhas : b.has (some e.field) with
          | true => rfl
          | false => exact (collect_of_not_has hhas).symm
        simp [hbefore, collect_add_self]
      · simp [hf, ih, collect_add_of_ne b hf]

theorem mem_keys_byField_iff : f ∈ Table.keys b.byField ↔ b.has (some f) = true := by
  rw [← Table.get?_isSome_iff, get?_byField]
  cases b.has (some f) <;> simp

theorem nodup_keys_byField (b : Bag) : (Table.keys b.byField).Nodup := by
  induction b using add_induction with
  | hempty => exact List.nodup_nil
  | hadd b e ih =>
      rw [byField_add]
      exact Table.nodup_keys_put ih e.field _

theorem byField_eq_map (b : Bag) :
    b.byField = (Table.keys b.byField).map fun f => (f, b.collect f) := by
  rw [Table.keys, List.map_map]
  conv_lhs => rw [← List.map_id b.byField]
  apply List.map_congr_left
  rintro ⟨f, messages⟩ hmem
  have hget := Table.get?_eq_some_of_mem (nodup_keys_byField b) hmem
  rw [get?_byField] at hget
  split at hget
  · rw [Function.comp_apply, Option.some.inj hget]
    rfl
  · cases hget

/-! ## The order of the fields -/

/-- The field of each entry. -/
def entryFields (b : Bag) : List String := b.entries.map (·.field)

theorem mem_entryFields_iff : f ∈ b.entryFields ↔ b.has (some f) = true := by
  rw [has_iff, entryFields, List.mem_map]

theorem eraseDups_concat (xs : List String) (x : String) :
    (xs ++ [x]).eraseDups = if x ∈ xs then xs.eraseDups else xs.eraseDups ++ [x] := by
  rw [List.eraseDups_append]
  by_cases hx : x ∈ xs <;> simp [hx, List.removeAll, List.eraseDups_cons]

/-- The fields of the table are those of the entries, each where it comes for the first time. -/
theorem keys_byField (b : Bag) : Table.keys b.byField = b.entryFields.eraseDups := by
  induction b using add_induction with
  | hempty => rfl
  | hadd b e ih =>
      have hfields : (b.add e).entryFields = b.entryFields ++ [e.field] := by
        simp [entryFields, add]
      rw [byField_add, Table.keys_put, hfields, eraseDups_concat]
      simp only [ih, List.mem_eraseDups]

theorem pairwise_idxOf_eraseDups (xs : List String) :
    xs.eraseDups.Pairwise fun x y => xs.idxOf x < xs.idxOf y := by
  induction xs using List.reverseRecOn with
  | nil => simp
  | append_singleton xs x ih =>
      have hplace : ∀ y ∈ xs.eraseDups, (xs ++ [x]).idxOf y = xs.idxOf y := fun y hy =>
        List.idxOf_append_of_mem (List.mem_eraseDups.mp hy)
      have hkept : xs.eraseDups.Pairwise fun y z => (xs ++ [x]).idxOf y < (xs ++ [x]).idxOf z := by
        apply ih.imp_of_mem
        intro y z hy hz hyz
        rwa [hplace y hy, hplace z hz]
      rw [eraseDups_concat]
      split
      · exact hkept
      · -- The new element comes behind all that were there before.
        rename_i hx
        have hnew : (xs ++ [x]).idxOf x = xs.length := by
          rw [List.idxOf_append_of_notMem hx]
          simp
        refine List.pairwise_append.mpr ⟨hkept, List.pairwise_singleton _ x, ?_⟩
        intro y hy z hz
        rw [List.mem_singleton.mp hz, hplace y hy, hnew]
        exact List.idxOf_lt_length_of_mem (List.mem_eraseDups.mp hy)

/-! ## Going through the table -/

/-- What the table lists is what is collected of its fields, one after the other. -/
theorem flatMap_byField (b : Bag) :
    b.byField.flatMap (·.2) = (b.entryFields.eraseDups.flatMap b.entriesOf).map (·.message) := by
  rw [byField_eq_map, keys_byField, List.flatMap_map, List.map_flatMap]
  rfl

/-- The entries of the fields of a bag one after the other are those of the bag, as sorted in that order. -/
theorem flatMap_entriesOf_perm (b : Bag) :
    (b.entryFields.eraseDups.flatMap b.entriesOf).Perm b.entries := by
  have hlisted : ∀ x ∈ b.entries, x.field ∈ b.entryFields.eraseDups := by
    intro x hx
    rw [List.mem_eraseDups]
    exact List.mem_map_of_mem hx
  rw [← entries_sortByFields_of_listed (nodup_eraseDups b.entryFields) hlisted]
  exact b.sortByFields_perm _

theorem sum_length_byField (b : Bag) : (b.byField.map fun g => g.2.length).sum = b.count := by
  rw [← List.length_flatMap, flatMap_byField, List.length_map]
  exact b.flatMap_entriesOf_perm.length_eq

/-! ## Entries that stand together -/

/-- Around the block of a field there is no entry of it. -/
theorem not_mem_around_block {before after : List Entry}
    (h : before ++ b.entriesOf f ++ after = b.entries) :
    (∀ x ∈ before, x.field ≠ f) ∧ ∀ x ∈ after, x.field ≠ f := by
  have hblock : (b.entriesOf f).filter (·.field == f) = b.entriesOf f := by
    simp [entriesOf]
  have hlength := congrArg (fun es => (es.filter (·.field == f)).length) h
  simp only [List.filter_append, List.length_append, hblock] at hlength
  have hall : (b.entries.filter (·.field == f)).length = (b.entriesOf f).length := rfl
  have hbefore : before.filter (·.field == f) = [] := List.length_eq_zero_iff.mp (by omega)
  have hafter : after.filter (·.field == f) = [] := List.length_eq_zero_iff.mp (by omega)
  rw [List.filter_eq_nil_iff] at hbefore hafter
  exact ⟨by simpa using hbefore, by simpa using hafter⟩

/-- A bag in blocks starts with the block of its first entry's field, and the other entries follow. -/
theorem InBlocks.entries_eq (h : b.InBlocks) {e : Entry} (he : b.entries.head? = some e) :
    b.entries = b.entriesOf e.field ++ (b.remove e.field).entries := by
  obtain ⟨before, after, hentries⟩ := h e.field
  obtain ⟨hbefore, hafter⟩ := not_mem_around_block hentries
  cases before with
  | cons first before =>
      -- The first entry would not be of its own field.
      rw [← hentries] at he
      obtain rfl : first = e := by simpa using he
      exact absurd rfl (hbefore first List.mem_cons_self)
  | nil =>
      rw [List.nil_append] at hentries
      have hblock : (b.entriesOf e.field).filter (·.field != e.field) = [] := by
        rw [List.filter_eq_nil_iff]
        intro x hx
        simp [(mem_entriesOf.mp hx).2]
      have hrest : after.filter (·.field != e.field) = after := by
        rw [List.filter_eq_self]
        intro x hx
        simpa using hafter x hx
      have hremove : (b.remove e.field).entries = after := by
        rw [Bag.remove, ← hentries, List.filter_append, hblock, hrest, List.nil_append]
      rw [hremove, hentries]

/-- A bag is in blocks exactly if it lists field after field, each where it comes for the first time. -/
theorem inBlocks_iff : b.InBlocks ↔ b.entries = b.entryFields.eraseDups.flatMap b.entriesOf := by
  refine ⟨fun h => ?_, inBlocks_of_eq_flatMap⟩
  induction hn : b.entries.length using Nat.strong_induction_on generalizing b with
  | _ n ih =>
      cases hes : b.entries with
      | nil => simp [entryFields, hes]
      | cons e es =>
          have hfirst := h.entries_eq (e := e) (by simp [hes])
          have hfields : b.entryFields.eraseDups =
              e.field :: (b.remove e.field).entryFields.eraseDups := by
            rw [entryFields, hes, List.map_cons, List.eraseDups_cons, entryFields, remove, hes]
            simp [List.filter_map, Function.comp_def, bne]
          have hshorter : (b.remove e.field).entries.length < n := by
            have hlength := congrArg List.length hfirst
            have hblock : 0 < (b.entriesOf e.field).length := by
              rw [List.length_pos_iff_exists_mem]
              exact ⟨e, mem_entriesOf.mpr ⟨by simp [hes], rfl⟩⟩
            rw [List.length_append] at hlength
            omega
          have hrest := ih _ hshorter (h.remove e.field) rfl
          have hothers : (b.remove e.field).entryFields.eraseDups.flatMap
                (b.remove e.field).entriesOf =
              (b.remove e.field).entryFields.eraseDups.flatMap b.entriesOf := by
            apply List.flatMap_congr
            intro g hg
            obtain ⟨x, hx, rfl⟩ := has_iff.mp (mem_entryFields_iff.mp (List.mem_eraseDups.mp hg))
            have hne := List.of_mem_filter hx
            exact entriesOf_remove_of_ne b (by simpa using hne)
          rw [← hes, hfields, List.flatMap_cons, ← hothers, ← hrest]
          exact hfirst

/-! ## The views agree -/

/-- The views of a bag agree, whatever became of it. Its table has the fields with entries for keys, each
once and in the order of their first entries, and under each what is collected of it; all in all these are as
many messages as the bag counts. The first message of a field is the first that is collected of it, and the
first of all is the first of all messages. If the entries of each field stand together, going through the
table is going through all messages. -/
theorem views_agree (b : Bag) :
    ((Table.keys b.byField).Nodup ∧
      (∀ f, f ∈ Table.keys b.byField ↔ b.has (some f) = true) ∧
      (Table.keys b.byField).Pairwise fun f g => b.entryFields.idxOf f < b.entryFields.idxOf g) ∧
    b.byField = (Table.keys b.byField).map (fun f => (f, b.collect f)) ∧
    (b.byField.map fun g => g.2.length).sum = b.count ∧ b.count = b.entries.length ∧
    (∀ f, b.first? (some f) = (b.collect f).head?) ∧
    b.first? none = b.all.head? ∧
    (b.InBlocks → b.byField.flatMap (·.2) = b.all) := by
  refine ⟨⟨b.nodup_keys_byField, fun f => mem_keys_byField_iff, ?_⟩, b.byField_eq_map,
    b.sum_length_byField, rfl, ?_, ?_, ?_⟩
  · rw [keys_byField]
    exact pairwise_idxOf_eraseDups b.entryFields
  · intro f
    rw [first?, collect, entriesOf, List.head?_map, List.head?_filter]
  · rw [first?, all, List.head?_map]
  · intro hblocks
    rw [flatMap_byField, ← inBlocks_iff.mp hblocks, all]

/-- A field whose entries are taken out and put in anew comes behind the others, in the table as in the list
of all messages, with equal messages as often as they are there. -/
theorem views_agree_anew :
    let short : Entry := ⟨"name", "too short", some "min"⟩
    let mail : Entry := ⟨"email", "no address", some "email"⟩
    let b := empty.run [.add short, .add mail, .remove "name", .add short, .add short]
    b.InBlocks ∧ b.byField = [("email", ["no address"]), ("name", ["too short", "too short"])] ∧
      b.byField.flatMap (·.2) = b.all := by
  intro short mail b
  have hblocks : b.InBlocks := inBlocks_iff.mpr (by decide)
  obtain ⟨-, -, -, -, -, -, hall⟩ := views_agree b
  exact ⟨hblocks, by decide, hall hblocks⟩

/-- Where the entries of a field do not stand together, going through the table is not going through the
bag. -/
example :
    let b : Bag :=
      ⟨[⟨"name", "too short", none⟩, ⟨"email", "no address", none⟩, ⟨"name", "missing", none⟩]⟩
    b.byField.flatMap (·.2) = ["too short", "missing", "no address"] ∧
      b.all = ["too short", "no address", "missing"] := by
  decide

end FieldRules.Bag
