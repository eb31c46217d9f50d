import FieldRules.Table
import Mathlib.Data.List.Induction
import Mathlib.Data.List.Nodup

/-!
# Tables and their keys

What a table answers after a value was put under a key or a key was taken out, and what becomes of
the keys and their order.
-/

namespace FieldRules

namespace Table

variable {κ α : Type} [DecidableEq κ]

/-! ## Answers -/

@[simp] theorem get?_nil (k : κ) : get? ([] : Table κ α) k = none := rfl

theorem get?_cons (e : κ × α) (t : Table κ α) (k : κ) :
    get? (e :: t) k = if e.1 = k then some e.2 else get? t k := by
  unfold get?
  by_cases h : e.1 = k <;> simp [h]

/-- A key that is in both tables stands for what it does in the first. -/
theorem get?_append (t u : Table κ α) (k : κ) : get? (t ++ u) k = (get? t k).or (get? u k) := by
  induction t with
  | nil => simp
  | cons e t ih =>
      rw [List.cons_append, get?_cons, get?_cons, ih]
      by_cases h : e.1 = k <;> simp [h]

theorem get?_put (t : Table κ α) (k j : κ) (v : α) :
    get? (put t k v) j = if k = j then some v else get? t j := by
  induction t with
  | nil => simp [put, get?_cons]
  | cons e t ih =>
      rw [put]
      by_cases he : e.1 = k
      · rw [if_pos he, get?_cons, get?_cons, he]
        by_cases hj : k = j <;> simp [hj]
      · rw [if_neg he, get?_cons, get?_cons, ih]
        by_cases hj : e.1 = j
        · have hkj : k ≠ j := fun h => he (hj.trans h.symm)
          simp [hj, hkj]
        · simp [hj]

@[simp] theorem get?_put_self (t : Table κ α) (k : κ) (v : α) : get? (put t k v) k = some v := by
  rw [get?_put, if_pos rfl]

theorem get?_put_of_ne (t : Table κ α) {k j : κ} (h : k ≠ j) (v : α) :
    get? (put t k v) j = get? t j := by
  rw [get?_put, if_neg h]

theorem mem_of_get?_eq_some {t : Table κ α} {k : κ} {v : α} (h : get? t k = some v) :
    (k, v) ∈ t := by
  induction t with
  | nil => simp at h
  | cons e t ih =>
      rw [get?_cons] at h
      split at h
      · rename_i hk
        rw [Option.some.injEq] at h
        rw [← hk, ← h]
        exact List.mem_cons_self
      · exact List.mem_cons_of_mem e (ih h)

theorem mem_of_mem_put {t : Table κ α} {k : κ} {v : α} {e : κ × α} (h : e ∈ put t k v) :
    e ∈ t ∨ e = (k, v) := by
  induction t with
  | nil => exact Or.inr (List.mem_singleton.mp h)
  | cons x t ih =>
      rw [put] at h
      split at h
      · rcases List.mem_cons.mp h with hhere | hlater
        · exact Or.inr hhere
        · exact Or.inl (List.mem_cons_of_mem x hlater)
      · rcases List.mem_cons.mp h with rfl | hlater
        · exact Or.inl List.mem_cons_self
        · exact (ih hlater).imp_left (List.mem_cons_of_mem x)

theorem remove_cons (e : κ × α) (t : Table κ α) (k : κ) :
    remove (e :: t) k = if e.1 = k then remove t k else e :: remove t k := by
  unfold remove
  by_cases h : e.1 = k <;> simp [h]

theorem get?_remove (t : Table κ α) (k j : κ) :
    get? (remove t k) j = if k = j then none else get? t j := by
  induction t with
  | nil => simp [remove]
  | cons e t ih =>
      rw [remove_cons]
      by_cases he : e.1 = k
      · rw [if_pos he, ih, get?_cons, he]
        by_cases hj : k = j <;> simp [hj]
      · rw [if_neg he, get?_cons, get?_cons, ih]
        by_cases hj : e.1 = j
        · have hkj : k ≠ j := fun h => he (hj.trans h.symm)
          simp [hj, hkj]
        · simp [hj]

/-! ## Keys -/

theorem get?_isSome_iff {t : Table κ α} {k : κ} : (get? t k).isSome ↔ k ∈ keys t := by
  induction t with
  | nil => simp [keys]
  | cons e t ih =>
      rw [get?_cons, keys, List.map_cons, List.mem_cons]
      by_cases h : e.1 = k
      · simp [h]
      · rw [if_neg h, ih, keys]
        simp [Ne.symm h]

theorem has_iff {t : Table κ α} {k : κ} : has t k = true ↔ k ∈ keys t := by
  simp [has, keys]

theorem keys_put (t : Table κ α) (k : κ) (v : α) :
    keys (put t k v) = if k ∈ keys t then keys t else keys t ++ [k] := by
  induction t with
  | nil => simp [put, keys]
  | cons e t ih =>
      rw [put]
      by_cases he : e.1 = k
      · simp [keys, he]
      · rw [if_neg he]
        have hcons : ∀ s : Table κ α, keys (e :: s) = e.1 :: keys s := fun s => rfl
        rw [hcons, hcons, ih]
        by_cases hk : k ∈ keys t
        · simp [hk]
        · simp [hk, Ne.symm he]

theorem has_put (t : Table κ α) (k j : κ) (v : α) :
    has (put t k v) j = (decide (k = j) || has t j) := by
  rw [Bool.eq_iff_iff, Bool.or_eq_true, decide_eq_true_eq, has_iff, has_iff, keys_put]
  split
  · rename_i hk
    constructor
    · exact Or.inr
    · rintro (rfl | hj)
      · exact hk
      · exact hj
  · simp [or_comm, eq_comm]

theorem keys_remove (t : Table κ α) (k : κ) : keys (remove t k) = (keys t).filter (· ≠ k) := by
  induction t with
  | nil => rfl
  | cons e t ih =>
      rw [remove_cons]
      by_cases he : e.1 = k
      · rw [if_pos he, ih]
        simp [keys, he]
      · rw [if_neg he]
        simp only [keys, List.map_cons] at ih ⊢
        rw [ih]
        simp [he]

theorem put_of_not_mem {t : Table κ α} {k : κ} (hk : k ∉ keys t) (v : α) :
    put t k v = t ++ [(k, v)] := by
  induction t with
  | nil => rfl
  | cons e t ih =>
      have hcons : keys (e :: t) = e.1 :: keys t := rfl
      rw [hcons, List.mem_cons, not_or] at hk
      rw [put, if_neg (Ne.symm hk.1), ih hk.2, List.cons_append]

theorem nodup_keys_put {t : Table κ α} (h : (keys t).Nodup) (k : κ) (v : α) :
    (keys (put t k v)).Nodup := by
  rw [keys_put]
  split
  · exact h
  · rename_i hk
    exact List.nodup_append.mpr ⟨h, List.nodup_singleton k, by
      intro a ha b hb
      rw [List.mem_singleton] at hb
      rintro rfl
      exact hk (hb ▸ ha)⟩

theorem nodup_keys_remove {t : Table κ α} (h : (keys t).Nodup) (k : κ) :
    (keys (remove t k)).Nodup := by
  rw [keys_remove]
  exact h.filter _

/-- With distinct keys, what stands in a table is what it answers. -/
theorem get?_eq_some_of_mem {t : Table κ α} (h : (keys t).Nodup) {k : κ} {v : α} (hmem : (k, v) ∈ t) :
    get? t k = some v := by
  induction t with
  | nil => simp at hmem
  | cons e t ih =>
      have hcons : keys (e :: t) = e.1 :: keys t := rfl
      rw [hcons, List.nodup_cons] at h
      rw [get?_cons]
      rcases List.mem_cons.mp hmem with rfl | hlater
      · rw [if_pos rfl]
      · -- The key stands further on, so the first entry is under another one.
        have hk : k ∈ keys t := List.mem_map.mpr ⟨(k, v), hlater, rfl⟩
        have hne : e.1 ≠ k := fun heq => h.1 (by rwa [heq])
        rw [if_neg hne, ih h.2 hlater]

/-- With distinct keys, a table answers the same whatever order its entries are in. -/
theorem get?_eq_of_perm {t u : Table κ α} (hperm : t.Perm u) (h : (keys t).Nodup) (k : κ) :
    get? t k = get? u k := by
  have hu : (keys u).Nodup := (hperm.map Prod.fst).nodup_iff.mp h
  apply Option.ext
  intro v
  constructor
  · intro hv
    exact get?_eq_some_of_mem hu (hperm.mem_iff.mp (mem_of_get?_eq_some hv))
  · intro hv
    exact get?_eq_some_of_mem h (hperm.mem_iff.mpr (mem_of_get?_eq_some hv))

/-! ## Tables from pairs -/

/-- A table with what a function gives for some keys. -/
theorem get?_filterMap (f : κ → Option α) (ks : List κ) (k : κ) :
    get? (ks.filterMap fun n => (f n).map fun v => (n, v)) k = if k ∈ ks then f k else none := by
  induction ks with
  | nil => rfl
  | cons n ks ih =>
      rw [List.filterMap_cons]
      cases hn : f n with
      | none =>
          rw [Option.map_none, ih]
          by_cases hsame : k = n <;> simp [hsame, hn]
      | some v =>
          rw [Option.map_some, get?_cons, ih]
          by_cases hsame : n = k
          · simp [← hsame, hn]
          · simp [hsame, Ne.symm hsame]

theorem ofPairs_concat (pairs : List (κ × α)) (e : κ × α) :
    ofPairs (pairs ++ [e]) = put (ofPairs pairs) e.1 e.2 := by
  simp [ofPairs]

theorem nodup_keys_ofPairs (pairs : List (κ × α)) : (keys (ofPairs pairs)).Nodup := by
  induction pairs using List.reverseRecOn with
  | nil => exact List.nodup_nil
  | append_singleton pairs e ih =>
      rw [ofPairs_concat]
      exact nodup_keys_put ih e.1 e.2

theorem mem_keys_ofPairs {pairs : List (κ × α)} {k : κ} : k ∈ keys (ofPairs pairs) ↔ k ∈ keys pairs := by
  induction pairs using List.reverseRecOn with
  | nil => rfl
  | append_singleton pairs e ih =>
      have hkeys : keys (pairs ++ [e]) = keys pairs ++ [e.1] := by simp [keys]
      rw [ofPairs_concat, keys_put, hkeys, List.mem_append, List.mem_singleton, ← ih]
      split
      · rename_i hold
        constructor
        · exact Or.inl
        · rintro (hk | rfl)
          · exact hk
          · exact hold
      · rw [List.mem_append, List.mem_singleton]

/-- Of the pairs with a key the last counts. -/
theorem get?_ofPairs_of_last (before after : List (κ × α)) {k : κ} (v : α) (h : k ∉ keys after) :
    get? (ofPairs (before ++ (k, v) :: after)) k = some v := by
  induction after using List.reverseRecOn with
  | nil => rw [ofPairs_concat, get?_put_self]
  | append_singleton after e ih =>
      have hkeys : keys (after ++ [e]) = keys after ++ [e.1] := by simp [keys]
      rw [hkeys, List.mem_append, not_or, List.mem_singleton] at h
      have hpairs : before ++ (k, v) :: (after ++ [e]) = (before ++ (k, v) :: after) ++ [e] := by simp
      rw [hpairs, ofPairs_concat, get?_put_of_ne _ (Ne.symm h.2), ih h.1]

/-- A table whose keys are distinct is what its entries are put together to. -/
theorem ofPairs_of_nodup {pairs : Table κ α} (h : (keys pairs).Nodup) : ofPairs pairs = pairs := by
  induction pairs using List.reverseRecOn with
  | nil => rfl
  | append_singleton pairs e ih =>
      have hkeys : keys (pairs ++ [e]) = keys pairs ++ [e.1] := by simp [keys]
      rw [hkeys, List.nodup_append] at h
      obtain ⟨hpairs, -, hnew⟩ := h
      have hfresh : e.1 ∉ keys pairs := fun hmem => hnew e.1 hmem e.1 (List.mem_singleton_self _) rfl
      rw [ofPairs_concat, ih hpairs, put_of_not_mem hfresh]

end Table

/-! ## Reading a list off -/

/-- If `f` is defined on the values of `g` alone and undoes it there, then what `f` reads off a list is
what the list comes from under `g`. -/
theorem mapM_eq_some_iff {α β : Type} {f : α → Option β} {g : β → α}
    (hfg : ∀ a b, f a = some b ↔ a = g b) {as : List α} {bs : List β} :
    as.mapM f = some bs ↔ as = bs.map g := by
  induction as generalizing bs with
  | nil => simp [eq_comm]
  | cons a as ih =>
      rw [List.mapM_cons]
      cases bs with
      | nil => simp [Option.bind_eq_some_iff]
      | cons b bs => simp [Option.bind_eq_some_iff, hfg, ih]

/-- Something can be read off a list exactly if it can be read off each of its members. -/
theorem isSome_mapM_iff {α β : Type} {f : α → Option β} {as : List α} :
    (as.mapM f).isSome = true ↔ ∀ a ∈ as, (f a).isSome = true := by
  induction as with
  | nil => simp
  | cons a as ih =>
      rw [List.mapM_cons, List.forall_mem_cons, ← ih]
      cases f a <;> cases as.mapM f <;> simp

/-- What is read off a list is read off each of its members. -/
theorem mapM_eq_some_iff_forall₂ {α β : Type} {f : α → Option β} {as : List α} {bs : List β} :
    as.mapM f = some bs ↔ List.Forall₂ (fun a b => f a = some b) as bs := by
  induction as generalizing bs with
  | nil => simp [eq_comm]
  | cons a as ih =>
      rw [List.mapM_cons]
      cases bs with
      | nil => simp [Option.bind_eq_some_iff]
      | cons b bs => simp [Option.bind_eq_some_iff, ih]

end FieldRules
