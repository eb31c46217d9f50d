import FieldRules.Dictionary
import FieldRules.Proofs.Table

/-!
# What a merge does to the dictionary

A merge is a list of writes: it opens locales and puts leaves, one after the other, up to the first
flaw (`update_eq_writes`). What the dictionary answers afterwards is read off the writes: for a leaf
the last one that was put there, or else what was there before (`get?_writeAll`), and a locale is there
if it was or if something was written to it (`hasLocale_writeAll`).

The dictionary is looked at through these two questions alone. `Same` says that two dictionaries answer
both alike, and `same_writeAll_iff` when writes make no difference.
-/

namespace FieldRules

namespace Dictionary

/-- Two dictionaries have the same messages and the same locales. -/
structure Same (d d' : Dictionary) : Prop where
  leaves : ∀ locale name, d'.get? locale name = d.get? locale name
  locales : ∀ locale, d'.hasLocale locale = d.hasLocale locale

/-! ## Writes -/

/-- One thing that a merge does. -/
inductive Write where
  /-- A locale is opened. -/
  | opening (locale : Key)
  /-- The message for a locale and a name is set. -/
  | leaf (locale name : Key) (f : MessageFn)

/-- The locale that is written to. -/
def Write.locale : Write → Key
  | opening l => l
  | leaf l _ _ => l

/-- The dictionary after a write. -/
def write (d : Dictionary) : Write → Dictionary
  | .opening locale => d.openLocale locale
  | .leaf locale name f => d.putLeaf locale name f

/-- The dictionary after writes. -/
def writeAll (d : Dictionary) (ws : List Write) : Dictionary := ws.foldl write d

/-- The last function that writes put under a locale and a name. -/
def lastLeaf? (l n : Key) : List Write → Option MessageFn
  | [] => none
  | .opening _ :: ws => lastLeaf? l n ws
  | .leaf locale name f :: ws =>
    (lastLeaf? l n ws).or (if locale = l ∧ name = n then some f else none)

theorem get?_putLeaf (d : Dictionary) (locale name : Key) (f : MessageFn) (l n : Key) :
    (d.putLeaf locale name f).get? l n =
      if locale = l ∧ name = n then some f else d.get? l n := by
  unfold get? putLeaf
  rw [Table.get?_put]
  by_cases hl : locale = l
  · subst hl
    rw [if_pos rfl, Option.bind_some, Table.get?_put]
    by_cases hn : name = n
    · simp [hn]
    · rw [if_neg hn, if_neg (fun h => hn h.2)]
      cases Table.get? d.locales locale <;> rfl
  · rw [if_neg hl, if_neg (fun h => hl h.1)]

theorem get?_openLocale (d : Dictionary) (locale l n : Key) :
    (d.openLocale locale).get? l n = d.get? l n := by
  unfold openLocale
  split
  · rfl
  · rename_i hnew
    unfold get?
    rw [Table.get?_put]
    by_cases hl : locale = l
    · -- A locale that is opened has no messages yet, and had none before.
      subst hl
      have hnone : Table.get? d.locales locale = none := by
        rw [← Option.not_isSome_iff_eq_none, Table.get?_isSome_iff, ← Table.has_iff]
        exact hnew
      rw [if_pos rfl, hnone]
      rfl
    · rw [if_neg hl]

theorem hasLocale_iff_mem_keys {d : Dictionary} {l : Key} :
    d.hasLocale l = true ↔ l ∈ Table.keys d.locales :=
  Table.has_iff

theorem hasLocale_write (d : Dictionary) (w : Write) (l : Key) :
    (d.write w).hasLocale l = (decide (w.locale = l) || d.hasLocale l) := by
  cases w with
  | leaf locale name f => exact Table.has_put _ _ _ _
  | opening locale =>
      show (d.openLocale locale).hasLocale l = _
      unfold openLocale
      split
      · rename_i hold
        by_cases hl : locale = l
        · subst hl
          simp [hold]
        · simp [Write.locale, hl]
      · exact Table.has_put _ _ _ _

theorem get?_writeAll (d : Dictionary) (ws : List Write) (l n : Key) :
    (d.writeAll ws).get? l n = (lastLeaf? l n ws).or (d.get? l n) := by
  induction ws generalizing d with
  | nil => rfl
  | cons w ws ih =>
      have hcons : d.writeAll (w :: ws) = (d.write w).writeAll ws := rfl
      rw [hcons, ih]
      cases w with
      | opening locale => rw [write, get?_openLocale, lastLeaf?]
      | leaf locale name f =>
          rw [write, get?_putLeaf, lastLeaf?, Option.or_assoc]
          split <;> rfl

theorem hasLocale_writeAll (d : Dictionary) (ws : List Write) (l : Key) :
    (d.writeAll ws).hasLocale l = (d.hasLocale l || ws.any fun w => decide (w.locale = l)) := by
  induction ws generalizing d with
  | nil => simp [writeAll]
  | cons w ws ih =>
      have hcons : d.writeAll (w :: ws) = (d.write w).writeAll ws := rfl
      rw [hcons, ih, hasLocale_write, List.any_cons, Bool.or_assoc, Bool.or_left_comm]

theorem writeAll_append (d : Dictionary) (ws ws' : List Write) :
    d.writeAll (ws ++ ws') = (d.writeAll ws).writeAll ws' := List.foldl_append

/-- Writing takes no message away. -/
theorem isSome_get?_writeAll {d : Dictionary} {l n : Key} (h : (d.get? l n).isSome = true)
    (ws : List Write) : ((d.writeAll ws).get? l n).isSome = true := by
  rw [get?_writeAll]
  cases lastLeaf? l n ws with
  | none => exact h
  | some f => rfl

theorem leaf_mem_of_lastLeaf? {l n : Key} {ws : List Write} {f : MessageFn}
    (h : lastLeaf? l n ws = some f) : .leaf l n f ∈ ws := by
  induction ws with
  | nil => simp [lastLeaf?] at h
  | cons w ws ih =>
      cases w with
      | opening locale => exact List.mem_cons_of_mem _ (ih h)
      | leaf locale name g =>
          rw [lastLeaf?, Option.or_eq_some_iff] at h
          rcases h with hlater | ⟨-, hhere⟩
          · exact List.mem_cons_of_mem _ (ih hlater)
          · split at hhere
            · rename_i hsame
              obtain ⟨rfl, rfl⟩ := hsame
              rw [Option.some.injEq] at hhere
              rw [hhere]
              exact List.mem_cons_self
            · simp at hhere

theorem lastLeaf?_append (l n : Key) (ws ws' : List Write) :
    lastLeaf? l n (ws ++ ws') = (lastLeaf? l n ws').or (lastLeaf? l n ws) := by
  induction ws with
  | nil => simp [lastLeaf?]
  | cons w ws ih => cases w <;> simp [lastLeaf?, ih, Option.or_assoc]

/-- There is no last function exactly if none is put there. -/
theorem lastLeaf?_eq_none_iff {l n : Key} {ws : List Write} :
    lastLeaf? l n ws = none ↔ ∀ f, .leaf l n f ∉ ws := by
  constructor
  · intro h f hmem
    induction ws with
    | nil => simp at hmem
    | cons w ws ih =>
        rcases List.mem_cons.mp hmem with rfl | hlater
        · simp [lastLeaf?] at h
        · cases w with
          | opening locale => exact ih h hlater
          | leaf locale name g =>
              rw [lastLeaf?, Option.or_eq_none_iff] at h
              exact ih h.1 hlater
  · intro h
    cases hlast : lastLeaf? l n ws with
    | none => rfl
    | some f => exact absurd (leaf_mem_of_lastLeaf? hlast) (h f)

/-- A message that is none of those written is the same afterwards. -/
theorem get?_writeAll_of_not_mem {d : Dictionary} {ws : List Write} {l n : Key}
    (h : ∀ f, .leaf l n f ∉ ws) : (d.writeAll ws).get? l n = d.get? l n := by
  rw [get?_writeAll, lastLeaf?_eq_none_iff.mpr h, Option.none_or]

theorem keys_write (d : Dictionary) (w : Write) :
    Table.keys (d.write w).locales =
      if w.locale ∈ Table.keys d.locales then Table.keys d.locales
      else Table.keys d.locales ++ [w.locale] := by
  cases w with
  | leaf locale name f => exact Table.keys_put _ _ _
  | opening locale =>
      show Table.keys (d.openLocale locale).locales = _
      unfold openLocale
      split
      · rename_i hold
        rw [hasLocale_iff_mem_keys] at hold
        rw [if_pos (show (Write.opening locale).locale ∈ _ from hold)]
      · exact Table.keys_put _ _ _

/-- Writes add the locales that are new, each once, behind those that were there. -/
theorem exists_keys_writeAll (d : Dictionary) (ws : List Write) :
    ∃ new, Table.keys (d.writeAll ws).locales = Table.keys d.locales ++ new ∧ new.Nodup ∧
      ∀ l ∈ new, l ∉ Table.keys d.locales := by
  induction ws generalizing d with
  | nil => exact ⟨[], by simp [writeAll]⟩
  | cons w ws ih =>
      obtain ⟨new, hkeys, hnodup, hnew⟩ := ih (d.write w)
      have hcons : d.writeAll (w :: ws) = (d.write w).writeAll ws := rfl
      rw [hcons, hkeys]
      rw [keys_write] at hnew ⊢
      split at hnew
      · rename_i hold
        exact ⟨new, by rw [if_pos hold], hnodup, hnew⟩
      · rename_i hfresh
        refine ⟨w.locale :: new, by rw [if_neg hfresh]; simp, ?_, ?_⟩
        · refine List.nodup_cons.mpr ⟨fun hmem => hnew _ hmem ?_, hnodup⟩
          simp
        · intro l hl
          rcases List.mem_cons.mp hl with rfl | hlater
          · exact hfresh
          · exact fun hold => hnew l hlater (List.mem_append_left _ hold)

theorem nodup_keys_writeAll {d : Dictionary} (h : (Table.keys d.locales).Nodup) (ws : List Write) :
    (Table.keys (d.writeAll ws).locales).Nodup := by
  obtain ⟨new, hkeys, hnodup, hnew⟩ := d.exists_keys_writeAll ws
  rw [hkeys]
  exact h.append hnodup fun l hold hl => hnew l hl hold

/-! ## Writes that make no difference -/

/-- All that writes bring is there already. -/
structure Holds (d : Dictionary) (ws : List Write) : Prop where
  leaves : ∀ l n f, lastLeaf? l n ws = some f → d.get? l n = some f
  locales : ∀ w ∈ ws, d.hasLocale w.locale = true

theorem same_writeAll_iff (d : Dictionary) (ws : List Write) :
    Same d (d.writeAll ws) ↔ d.Holds ws := by
  constructor
  · intro h
    constructor
    · intro l n f hf
      rw [← h.leaves, get?_writeAll, hf, Option.some_or]
    · intro w hw
      rw [← h.locales, hasLocale_writeAll, Bool.or_eq_true, List.any_eq_true]
      exact Or.inr ⟨w, hw, by simp⟩
  · intro h
    constructor
    · intro l n
      rw [get?_writeAll]
      cases hf : lastLeaf? l n ws with
      | none => rfl
      | some f => exact (h.leaves l n f hf).symm
    · intro l
      rw [hasLocale_writeAll]
      cases hany : ws.any fun w => decide (w.locale = l) with
      | false => simp
      | true =>
          obtain ⟨w, hw, hl⟩ := List.any_eq_true.mp hany
          rw [decide_eq_true_eq] at hl
          rw [← hl, h.locales w hw, Bool.true_or]

/-! ## A merge as writes -/

/-- What the messages for a locale write up to the first flaw, and the flaw if there is one. -/
def namesWrites (locale : Key) : List (Key × Message) → List Write × Except DictionaryFlaw Unit
  | [] => ([], .ok ())
  | (name, message) :: rest => match message.compile with
    | .error flaw => ([], .error flaw)
    | .ok f => (.leaf locale name f :: (namesWrites locale rest).1, (namesWrites locale rest).2)

/-- What a merge writes up to the first flaw, and the flaw if there is one. -/
def writes : Partial → List Write × Except DictionaryFlaw Unit
  | [] => ([], .ok ())
  | (_, .error text) :: _ => ([], .error (.localeNotMapping text))
  | (locale, .ok names) :: rest =>
    let here := namesWrites locale names
    match here.2 with
    | .error flaw => (.opening locale :: here.1, .error flaw)
    | .ok () => (.opening locale :: here.1 ++ (writes rest).1, (writes rest).2)

theorem mergeNames_eq_writes (d : Dictionary) (locale : Key) (names : List (Key × Message)) :
    d.mergeNames locale names =
      (d.writeAll (namesWrites locale names).1, (namesWrites locale names).2) := by
  induction names generalizing d with
  | nil => rfl
  | cons e rest ih =>
      rw [mergeNames, namesWrites]
      cases e.2.compile with
      | error flaw => rfl
      | ok f => exact ih _

theorem update_eq_writes (d : Dictionary) (p : Partial) :
    d.update p = (d.writeAll (writes p).1, (writes p).2) := by
  induction p generalizing d with
  | nil => rfl
  | cons e rest ih =>
      obtain ⟨locale, names⟩ := e
      cases names with
      | error text => rfl
      | ok names =>
          rw [update, mergeNames_eq_writes, writes]
          have hopen : (d.openLocale locale).writeAll (namesWrites locale names).1 =
              d.writeAll (.opening locale :: (namesWrites locale names).1) := rfl
          rw [hopen]
          cases hresult : (namesWrites locale names).2 with
          | error flaw => rfl
          | ok u =>
              simp only [ih]
              simp only [writeAll, ← List.foldl_append]

/-! ## What was handed over -/

/-- What is merged has a message for a locale and a name. -/
def Gives (p : Partial) (locale name : Key) : Prop :=
  ∃ names, (locale, .ok names) ∈ p ∧ name ∈ Table.keys names

/-- The messages for a locale write nothing but what they are compiled to, for this locale. -/
theorem of_mem_namesWrites {locale : Key} {names : List (Key × Message)} {w : Write}
    (h : w ∈ (namesWrites locale names).1) :
    ∃ n m f, w = .leaf locale n f ∧ (n, m) ∈ names ∧ m.compile = .ok f := by
  induction names with
  | nil => simp [namesWrites] at h
  | cons e rest ih =>
      rw [namesWrites] at h
      cases hcompiled : e.2.compile with
      | error flaw => simp [hcompiled] at h
      | ok g =>
          simp only [hcompiled, List.mem_cons] at h
          rcases h with rfl | hlater
          · exact ⟨e.1, e.2, g, rfl, List.mem_cons_self, hcompiled⟩
          · obtain ⟨n, m, f, hw, hmem, hm⟩ := ih hlater
            exact ⟨n, m, f, hw, List.mem_cons_of_mem _ hmem, hm⟩

/-- A merge writes to locales that were handed over, and under each name what a message that was handed
over with it is compiled to. -/
theorem of_mem_writes {p : Partial} {w : Write} (h : w ∈ (writes p).1) :
    ∃ names, (w.locale, .ok names) ∈ p ∧
      ∀ l n f, w = .leaf l n f → ∃ m, (n, m) ∈ names ∧ m.compile = .ok f := by
  induction p with
  | nil => simp [writes] at h
  | cons e rest ih =>
      obtain ⟨locale, names⟩ := e
      cases names with
      | error text => simp [writes] at h
      | ok names =>
          have hhere : w = .opening locale ∨ w ∈ (namesWrites locale names).1 →
              ∃ names', (w.locale, .ok names') ∈ (locale, .ok names) :: rest ∧
                ∀ l n f, w = .leaf l n f → ∃ m, (n, m) ∈ names' ∧ m.compile = .ok f := by
            rintro (rfl | hmem)
            · exact ⟨names, List.mem_cons_self, by simp⟩
            · obtain ⟨n, m, f, rfl, hn, hm⟩ := of_mem_namesWrites hmem
              refine ⟨names, List.mem_cons_self, ?_⟩
              intro l n' f' hw
              cases hw
              exact ⟨m, hn, hm⟩
          rw [writes] at h
          cases hresult : (namesWrites locale names).2 with
          | error flaw =>
              -- The merge ends here, so all it writes is for this locale.
              simp only [hresult, List.mem_cons] at h
              exact hhere h
          | ok u =>
              simp only [hresult, List.cons_append, List.mem_cons, List.mem_append] at h
              rcases h with hopening | hfirst | hlater
              · exact hhere (Or.inl hopening)
              · exact hhere (Or.inr hfirst)
              · obtain ⟨names', hmem, hn⟩ := ih hlater
                exact ⟨names', List.mem_cons_of_mem _ hmem, hn⟩

/-- A merge writes a message only for a locale and a name for which one was handed over. -/
theorem gives_of_leaf_mem {p : Partial} {l n : Key} {f : MessageFn} (h : .leaf l n f ∈ (writes p).1) :
    Gives p l n := by
  obtain ⟨names, hmem, hleaf⟩ := of_mem_writes h
  obtain ⟨m, hn, -⟩ := hleaf l n f rfl
  exact ⟨names, hmem, List.mem_map_of_mem hn⟩

/-- A merge without a flaw opens every locale that was handed over. -/
theorem opening_mem_writes {p : Partial} (h : (writes p).2 = .ok ()) {l : Key}
    (hl : l ∈ Table.keys p) : .opening l ∈ (writes p).1 := by
  induction p with
  | nil => simp [Table.keys] at hl
  | cons e rest ih =>
      obtain ⟨locale, names⟩ := e
      cases names with
      | error text => simp [writes] at h
      | ok names =>
          rw [writes] at h ⊢
          cases hnames : (namesWrites locale names).2 with
          | error flaw => simp [hnames] at h
          | ok u =>
              simp only [hnames, List.cons_append, List.mem_cons, List.mem_append] at h ⊢
              rcases List.mem_cons.mp hl with rfl | hlater
              · exact Or.inl rfl
              · exact Or.inr (Or.inr (ih h hlater))

/-- The locales that a merge without a flaw writes to are those that were handed over. -/
theorem any_locale_writes {p : Partial} (h : (writes p).2 = .ok ()) {l : Key} :
    ((writes p).1.any fun w => decide (w.locale = l)) = true ↔ l ∈ Table.keys p := by
  rw [List.any_eq_true]
  constructor
  · rintro ⟨w, hw, hl⟩
    obtain ⟨names, hmem, -⟩ := of_mem_writes hw
    rw [← of_decide_eq_true hl]
    exact List.mem_map_of_mem hmem
  · intro hl
    exact ⟨_, opening_mem_writes h hl, by simp [Write.locale]⟩

end Dictionary

end FieldRules
