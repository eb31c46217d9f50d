import FieldRules.Proofs.Fault
import FieldRules.Proofs.Yaml.Content

/-!
# The keys of a document

Whatever is read from a document, its mappings have keys that can be told apart: no entry has a
collection for its key, and no two entries have the same key (`keyed_of_read`). So what a document says
under a key is one thing.
-/

namespace FieldRules

namespace Value

/-! ## Putting entries into a dictionary -/

variable {es : List (Value × Value)} {ks : List Key} {k v : Value} {j : Key}

theorem sameKey_iff (hk : k.key? = some j) {a : Value} : a.sameKey k = true ↔ a.key? = some j := by
  unfold sameKey
  rw [hk]
  cases a.key? <;> simp

theorem keyed_of_key? (hk : k.key? = some j) : k.Keyed := by
  apply Keyed.other
  rintro es rfl
  simp [key?] at hk

theorem HasKeys.mem_iff (h : HasKeys es ks) : j ∈ ks ↔ ∃ e ∈ es, e.1.key? = some j := by
  have hmem : some j ∈ es.map (·.1.key?) ↔ j ∈ ks := by
    rw [h.1]
    simp
  rw [← hmem, List.mem_map]

theorem HasKeys.exists_key? (h : HasKeys es ks) {e : Value × Value} (he : e ∈ es) :
    ∃ j, e.1.key? = some j := by
  have hmem : e.1.key? ∈ ks.map some := by
    rw [← h.1]
    exact List.mem_map_of_mem he
  obtain ⟨j, -, hj⟩ := List.mem_map.mp hmem
  exact ⟨j, hj.symm⟩

theorem HasKeys.filterMap_key? (h : HasKeys es ks) : es.filterMap (·.1.key?) = ks := by
  have hid : es.filterMap (·.1.key?) = (es.map (·.1.key?)).filterMap id := by
    rw [List.filterMap_map]
    rfl
  rw [hid, h.1]
  simp

theorem hasKeys_insertEntry (h : HasKeys es ks) (hk : k.key? = some j) :
    ∃ ks', HasKeys (insertEntry es k v) ks' := by
  unfold insertEntry
  split
  · -- The entry with this key keeps its place and its key.
    refine ⟨ks, ?_, h.2⟩
    rw [List.map_map, ← h.1]
    apply List.map_congr_left
    intro e _
    simp only [Function.comp_apply]
    split <;> rfl
  · rename_i hnew
    refine ⟨ks ++ [j], ?_, ?_⟩
    · rw [List.map_append, List.map_append, h.1]
      simp [hk]
    · rw [List.nodup_append]
      refine ⟨h.2, by simp, ?_⟩
      rintro i hi i' hi' rfl
      obtain rfl := List.mem_singleton.mp hi'
      obtain ⟨e, he, hsame⟩ := h.mem_iff.mp hi
      exact hnew (List.any_eq_true.mpr ⟨e, he, (sameKey_iff hk).mpr hsame⟩)

theorem value_of_mem_insertEntry {e : Value × Value} (h : e ∈ insertEntry es k v) :
    e.2 = v ∨ ∃ e' ∈ es, e'.2 = e.2 := by
  unfold insertEntry at h
  split at h
  · obtain ⟨e', he', rfl⟩ := List.mem_map.mp h
    by_cases hsame : e'.1.sameKey k
    · left
      rw [if_pos hsame]
    · right
      exact ⟨e', he', by rw [if_neg hsame]⟩
  · rcases List.mem_append.mp h with hold | hnew
    · exact Or.inr ⟨e, hold, rfl⟩
    · left
      rw [List.mem_singleton.mp hnew]

/-- Entries with keys can be put into a dictionary one after the other. -/
theorem keyed_foldl_insertEntry {d : List (Value × Value)} (hd : (dict d).Keyed)
    (h : ∀ e ∈ es, (∃ j, e.1.key? = some j) ∧ e.2.Keyed) :
    (dict (es.foldl (fun d e => insertEntry d e.1 e.2) d)).Keyed := by
  induction es generalizing d with
  | nil => exact hd
  | cons e es ih =>
      obtain ⟨⟨⟨j, hj⟩, hkeyed⟩, hes⟩ := List.forall_mem_cons.mp h
      apply ih _ hes
      cases hd with
      | other hother => exact absurd rfl (hother d)
      | dict hkeys hvalues =>
          obtain ⟨ks', hkeys'⟩ := hasKeys_insertEntry (v := e.2) hkeys hj
          refine .dict hkeys' ?_
          intro x hx
          rcases value_of_mem_insertEntry hx with hnew | ⟨x', hx', hold⟩
          · rwa [hnew]
          · rw [← hold]
            exact hvalues x' hx'

/-- A dictionary that is made of entries with keys has them once each. -/
theorem keyed_dictOf (h : ∀ e ∈ es, (∃ j, e.1.key? = some j) ∧ e.2.Keyed) : (dictOf es).Keyed :=
  keyed_foldl_insertEntry (.dict ⟨rfl, List.nodup_nil⟩ (by simp)) h

end Value

/-! ## Reading -/

namespace Yaml

theorem exists_key?_of_readTimestamp {text : List Char} {v : Value} (h : readTimestamp text = .ok v) :
    ∃ j, v.key? = some j := by
  unfold readTimestamp at h
  split at h
  · simp at h
  · obtain ⟨offset, -, h⟩ := bind_eq_ok_iff.mp h
    split at h
    · simp at h
    · obtain rfl := Except.ok.inj h
      exact ⟨_, rfl⟩
    · split at h
      · obtain rfl := Except.ok.inj h
        exact ⟨_, rfl⟩
      · simp at h

/-- The value of a scalar can be a key. -/
theorem exists_key?_of_scalarValue {tag : Tag} {text : String} {v : Value}
    (h : scalarValue tag text = .ok v) : ∃ j, v.key? = some j := by
  cases tag with
  | null =>
      obtain rfl := Except.ok.inj h
      exact ⟨_, rfl⟩
  | str =>
      obtain rfl := Except.ok.inj h
      exact ⟨_, rfl⟩
  | bool =>
      obtain ⟨b, -, rfl⟩ := map_eq_ok_iff.mp h
      exact ⟨_, rfl⟩
  | int =>
      obtain ⟨n, -, rfl⟩ := map_eq_ok_iff.mp h
      exact ⟨_, rfl⟩
  | float =>
      obtain ⟨x, -, rfl⟩ := map_eq_ok_iff.mp h
      exact ⟨_, rfl⟩
  | binary =>
      obtain ⟨bs, -, rfl⟩ := map_eq_ok_iff.mp h
      exact ⟨_, rfl⟩
  | timestamp => exact exists_key?_of_readTimestamp h
  | _ => simp [scalarValue] at h

theorem exists_key?_of_soleValue {n : Node} {v : Value} (h : soleValue n = .ok v) :
    ∃ j, v.key? = some j := by
  obtain ⟨text, -, hvalue⟩ := bind_eq_ok_iff.mp h
  split at hvalue
  · simp at hvalue
  · exact exists_key?_of_scalarValue hvalue

/-- A node that is no collection has a value that can be a key. -/
theorem exists_key?_of_valueOf {rounds depth : Nat} {n : Node} {v : Value}
    (hn : n.tag.isCollection = false) (h : valueOf rounds depth n = .ok v) : ∃ j, v.key? = some j := by
  cases rounds with
  | zero => simp [valueOf, misfit] at h
  | succ rounds =>
      have hbuilt := builtFrom_valueOf rounds depth n
      rw [h] at hbuilt
      generalize hv : (Except.ok v : Built Value) = built at hbuilt
      cases hbuilt with
      | scalar => exact exists_key?_of_soleValue (mapError_eq_ok_iff.mp hv.symm)
      | otherKind hcollection => simp [hn] at hcollection
      | pairs htag items => rcases htag with rfl | rfl <;> simp [Node.tag, Tag.isCollection] at hn
      | _ => simp [Node.tag, Tag.isCollection] at hn

/-- The value of a node has keys that can be told apart, wherever it has dictionaries. -/
theorem keyed_of_valueOf {rounds depth : Nat} {n : Node} {v : Value}
    (h : valueOf rounds depth n = .ok v) : v.Keyed := by
  -- The values in a dictionary are built in fewer rounds than the dictionary.
  induction rounds using Nat.strongRecOn generalizing depth n v with
  | ind rounds ih =>
      cases rounds with
      | zero => simp [valueOf, misfit] at h
      | succ rounds =>
          have hbuilt := builtFrom_valueOf rounds depth n
          rw [h] at hbuilt
          generalize hv : (Except.ok v : Built Value) = built at hbuilt
          cases hbuilt with
          | dict entries =>
              obtain ⟨es, hes, rfl⟩ := map_eq_ok_iff.mp hv.symm
              cases rounds with
              | zero => simp [entryValues, misfit] at hes
              | succ rounds =>
                  apply Value.keyed_dictOf
                  intro e he
                  obtain ⟨e', hcollection, hkey, hvalue⟩ := of_entryValues_eq_ok hes e he
                  exact ⟨exists_key?_of_valueOf hcollection hkey, ih rounds (by omega) hvalue⟩
          | scalar hn =>
              obtain ⟨j, hj⟩ := exists_key?_of_valueOf hn h
              exact Value.keyed_of_key? hj
          | otherKind => simp [misfit] at hv
          | list items =>
              obtain ⟨vs, -, rfl⟩ := map_eq_ok_iff.mp hv.symm
              exact .other (by simp)
          | set entries =>
              obtain ⟨es, -, rfl⟩ := map_eq_ok_iff.mp hv.symm
              exact .other (by simp)
          | pairs htag items =>
              obtain ⟨vs, -, rfl⟩ := map_eq_ok_iff.mp hv.symm
              exact .other (by simp)

/-- A document has keys that can be told apart. -/
theorem keyed_of_read {text : List Char} {v : Value} (h : read text = .ok v) : v.Keyed := by
  obtain ⟨root, -, hroot⟩ := bind_eq_ok_iff.mp h
  cases root with
  | none =>
      obtain rfl := Except.ok.inj hroot
      exact .other (by simp)
  | some root => exact keyed_of_valueOf (mapError_eq_ok_iff.mp hroot)

end Yaml

end FieldRules
