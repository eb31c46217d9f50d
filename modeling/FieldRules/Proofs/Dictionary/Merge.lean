import FieldRules.Proofs.Dictionary.Locales

/-!
# A merge, leaf by leaf

What is handed over to be merged is an ordered mapping of locales to ordered mappings of names. If
nothing in it is malformed, all of it is merged and nothing else changes. Otherwise the merge stops at
the first malformed item, and what it leaves behind is what a merge of the part before this item gives
(`update_breaksOff`). That part may end with a locale that has no names yet: the locale is opened before
its names are looked at.

Two merges without a leaf in common can be made in either order (`alike_update_comm`).
-/

namespace FieldRules

namespace Message

/-- The function that a message is kept as: a function as it is, a text as the function of a template. -/
inductive Makes : Message → MessageFn → Prop
  | fn (f : MessageFn) : Makes (.fn f) f
  | template (t : String) : Makes (.plain (.text t)) (templateMessage t)

/-- A message that can be kept. -/
def Usable (m : Message) : Prop := ∃ f, m.Makes f

theorem compile_eq_ok_iff {m : Message} {f : MessageFn} : m.compile = .ok f ↔ m.Makes f := by
  constructor
  · intro h
    unfold compile at h
    split at h
    · rw [Except.ok.injEq] at h
      exact h ▸ .fn _
    · rw [Except.ok.injEq] at h
      exact h ▸ .template _
    · simp at h
  · rintro (_ | _) <;> rfl

theorem Makes.unique {m : Message} {f g : MessageFn} (hf : m.Makes f) (hg : m.Makes g) : f = g := by
  rw [← compile_eq_ok_iff] at hf hg
  rw [hf, Except.ok.injEq] at hg
  exact hg

theorem compile_of_not_text {v : Value} (hv : ∀ t, v ≠ .text t) :
    (plain v).compile = .error (.badMessage v.kindName) := by
  cases v with
  | text t => exact absurd rfl (hv t)
  | _ => rfl

/-- A message that cannot be kept is a plain value that is no text. -/
theorem exists_plain_of_not_usable {m : Message} (h : ¬ m.Usable) :
    ∃ v, m = .plain v ∧ ∀ t, v ≠ .text t := by
  cases m with
  | fn f => exact absurd ⟨f, .fn f⟩ h
  | plain v =>
      refine ⟨v, rfl, ?_⟩
      rintro t rfl
      exact h ⟨_, .template t⟩

end Message

namespace Dictionary

/-! ## What is handed over -/

namespace Partial

/-- No locale occurs twice, and no name twice in a locale. -/
structure IsMapping (p : Partial) : Prop where
  locales : (Table.keys p).Nodup
  names : ∀ l names, (l, .ok names) ∈ p → (Table.keys names).Nodup

/-- Every locale has a mapping, and every message can be kept. -/
def WellFormed (p : Partial) : Prop :=
  ∀ e ∈ p, ∃ names, e.2 = .ok names ∧ ∀ x ∈ names, x.2.Usable

/-- The message for a locale and a name. -/
def HasLeaf (p : Partial) (l n : Key) (m : Message) : Prop :=
  ∃ names, (l, .ok names) ∈ p ∧ (n, m) ∈ names

/-- The first malformed item, as the part before it and the flaw that it is. -/
inductive BreaksOff : Partial → Partial → DictionaryFlaw → Prop
  /-- A locale has no mapping. -/
  | atLocale {before : Partial} (hbefore : before.WellFormed) (l : Key) (text : String) (after : Partial) :
      BreaksOff (before ++ (l, .error text) :: after) before (.localeNotMapping text)
  /-- A message cannot be kept. The names before it belong to the part that comes first, and so does
  their locale even if there are none. -/
  | atMessage {before : Partial} {names : List (Key × Message)} {v : Value}
      (hbefore : before.WellFormed) (hnames : ∀ x ∈ names, x.2.Usable) (hv : ∀ t, v ≠ .text t)
      (l n : Key) (more : List (Key × Message)) (after : Partial) :
      BreaksOff (before ++ (l, .ok (names ++ (n, .plain v) :: more)) :: after)
        (before ++ [(l, .ok names)]) (.badMessage v.kindName)

variable {p q : Partial} {flaw : DictionaryFlaw} {l n : Key} {m : Message}

/-- In a mapping there is one message for a locale and a name. -/
theorem IsMapping.leaf_unique {m' : Message} (hp : p.IsMapping) (h : p.HasLeaf l n m)
    (h' : p.HasLeaf l n m') : m = m' := by
  obtain ⟨names, hmem, hn⟩ := h
  obtain ⟨names', hmem', hn'⟩ := h'
  have hsame := Table.get?_eq_some_of_mem hp.locales hmem
  rw [Table.get?_eq_some_of_mem hp.locales hmem', Option.some.injEq, Except.ok.injEq] at hsame
  subst hsame
  have hnodup := hp.names l _ hmem
  have hsame := Table.get?_eq_some_of_mem hnodup hn
  rw [Table.get?_eq_some_of_mem hnodup hn', Option.some.injEq] at hsame
  exact hsame.symm

theorem wellFormed_nil : WellFormed [] := by
  intro e he
  simp at he

theorem WellFormed.append (hp : p.WellFormed) (hq : q.WellFormed) : (p ++ q).WellFormed :=
  List.forall_mem_append.mpr ⟨hp, hq⟩

theorem wellFormed_singleton {names : List (Key × Message)} (h : ∀ x ∈ names, x.2.Usable) :
    WellFormed [(l, .ok names)] := by
  intro e he
  rw [List.mem_singleton.mp he]
  exact ⟨names, rfl, h⟩

theorem BreaksOff.wellFormed (h : BreaksOff p q flaw) : q.WellFormed := by
  cases h with
  | atLocale hbefore l text after => exact hbefore
  | atMessage hbefore hnames hv l n more after =>
      exact hbefore.append (wellFormed_singleton hnames)

/-- The part before the first malformed item is a mapping as well. -/
theorem BreaksOff.isMapping (h : BreaksOff p q flaw) (hp : p.IsMapping) : q.IsMapping := by
  obtain ⟨hlocales, hnames⟩ := hp
  cases h with
  | atLocale hbefore l text after =>
      constructor
      · rw [Table.keys, List.map_append] at hlocales
        exact (List.nodup_append.mp hlocales).1
      · intro l' names hmem
        exact hnames l' names (List.mem_append_left _ hmem)
  | @atMessage before names v hbefore _ _ l n more after =>
      constructor
      · rw [Table.keys, List.map_append, List.map_cons, List.append_cons] at hlocales
        rw [Table.keys, List.map_append]
        exact (List.nodup_append.mp hlocales).1
      · intro l' names' hmem
        rcases List.mem_append.mp hmem with hearlier | hlast
        · exact hnames l' names' (List.mem_append_left _ hearlier)
        · obtain ⟨rfl, hsame⟩ := Prod.mk.inj (List.mem_singleton.mp hlast)
          obtain rfl := Except.ok.inj hsame
          have hall := hnames l' _ (List.mem_append_right _ List.mem_cons_self)
          rw [Table.keys, List.map_append] at hall
          exact (List.nodup_append.mp hall).1

/-- Of some messages either all can be kept, or there is a first that cannot. -/
theorem usable_or_first (names : List (Key × Message)) :
    (∀ x ∈ names, x.2.Usable) ∨ ∃ before n v more, names = before ++ (n, .plain v) :: more ∧
      (∀ x ∈ before, x.2.Usable) ∧ ∀ t, v ≠ .text t := by
  induction names with
  | nil => left; simp
  | cons x names ih =>
      by_cases hx : x.2.Usable
      · rcases ih with hall | ⟨before, n, v, more, rfl, hbefore, hv⟩
        · left
          exact List.forall_mem_cons.mpr ⟨hx, hall⟩
        · right
          exact ⟨x :: before, n, v, more, rfl, List.forall_mem_cons.mpr ⟨hx, hbefore⟩, hv⟩
      · obtain ⟨v, hm, hv⟩ := Message.exists_plain_of_not_usable hx
        right
        exact ⟨[], x.1, v, names, by rw [← hm]; rfl, by simp, hv⟩

theorem BreaksOff.cons {e : Key × Except String (List (Key × Message))} (he : WellFormed [e])
    (h : BreaksOff p q flaw) : BreaksOff (e :: p) (e :: q) flaw := by
  cases h with
  | @atLocale before hbefore l text after => exact .atLocale (he.append hbefore) l text after
  | @atMessage before names v hbefore hnames hv l n more after =>
      exact .atMessage (he.append hbefore) hnames hv l n more after

/-- If something is malformed, something is the first. -/
theorem exists_breaksOff (h : ¬ p.WellFormed) : ∃ q flaw, BreaksOff p q flaw := by
  induction p with
  | nil => exact absurd wellFormed_nil h
  | cons e p ih =>
      obtain ⟨l, text | names⟩ := e
      · exact ⟨[], _, .atLocale wellFormed_nil l text p⟩
      · rcases usable_or_first names with hall | ⟨before, n, v, more, rfl, hbefore, hv⟩
        · have he : WellFormed [(l, .ok names)] := wellFormed_singleton hall
          have hp : ¬ WellFormed p := fun hp => h (he.append hp)
          obtain ⟨q, flaw, hq⟩ := ih hp
          exact ⟨_, flaw, hq.cons he⟩
        · exact ⟨[(l, .ok before)], _, .atMessage wellFormed_nil hbefore hv l n more p⟩

end Partial

/-! ## A merge without a flaw -/

variable {p q : Partial}

theorem namesWrites_of_usable (l : Key) {names : List (Key × Message)} (h : ∀ x ∈ names, x.2.Usable) :
    (namesWrites l names).2 = .ok () := by
  induction names with
  | nil => rfl
  | cons x names ih =>
      obtain ⟨⟨f, hf⟩, hrest⟩ := List.forall_mem_cons.mp h
      rw [namesWrites, Message.compile_eq_ok_iff.mpr hf]
      exact ih hrest

theorem writes_of_wellFormed (h : p.WellFormed) : (writes p).2 = .ok () := by
  induction p with
  | nil => rfl
  | cons e p ih =>
      obtain ⟨⟨names, hsome, hnames⟩, hrest⟩ := List.forall_mem_cons.mp h
      obtain ⟨l, _⟩ := e
      obtain rfl : _ = Except.ok names := hsome
      simp only [writes, namesWrites_of_usable l hnames]
      exact ih hrest

theorem leaf_mem_namesWrites {l n : Key} {names : List (Key × Message)} {m : Message} {f : MessageFn}
    (h : ∀ x ∈ names, x.2.Usable) (hmem : (n, m) ∈ names) (hf : m.Makes f) :
    .leaf l n f ∈ (namesWrites l names).1 := by
  induction names with
  | nil => simp at hmem
  | cons x names ih =>
      obtain ⟨⟨g, hg⟩, hrest⟩ := List.forall_mem_cons.mp h
      rw [namesWrites, Message.compile_eq_ok_iff.mpr hg]
      rcases List.mem_cons.mp hmem with rfl | hlater
      · rw [hf.unique hg]
        exact List.mem_cons_self
      · exact List.mem_cons_of_mem _ (ih hrest hlater)

/-- Without a flaw every leaf is written. -/
theorem leaf_mem_writes {l n : Key} {m : Message} {f : MessageFn} (h : p.WellFormed)
    (hleaf : p.HasLeaf l n m) (hf : m.Makes f) : .leaf l n f ∈ (writes p).1 := by
  obtain ⟨names, hmem, hn⟩ := hleaf
  induction p with
  | nil => simp at hmem
  | cons e p ih =>
      obtain ⟨⟨names', hsome, hnames⟩, hrest⟩ := List.forall_mem_cons.mp h
      obtain ⟨l', _⟩ := e
      obtain rfl : _ = Except.ok names' := hsome
      simp only [writes, namesWrites_of_usable l' hnames, List.cons_append, List.mem_cons,
        List.mem_append]
      rcases List.mem_cons.mp hmem with hhere | hlater
      · obtain ⟨rfl, hsame⟩ := Prod.mk.inj hhere
        obtain rfl := Except.ok.inj hsame
        exact Or.inr (Or.inl (leaf_mem_namesWrites hnames hn hf))
      · exact Or.inr (Or.inr (ih hrest hlater))

/-- What a merge writes for a locale and a name is made of a message that was handed over for them. -/
theorem exists_hasLeaf_of_mem {l n : Key} {f : MessageFn} (h : .leaf l n f ∈ (writes p).1) :
    ∃ m, p.HasLeaf l n m ∧ m.Makes f := by
  obtain ⟨names, hmem, hleaf⟩ := of_mem_writes h
  obtain ⟨m, hn, hm⟩ := hleaf l n f rfl
  exact ⟨m, ⟨names, hmem, hn⟩, Message.compile_eq_ok_iff.mp hm⟩

theorem update_of_wellFormed (d : Dictionary) (h : p.WellFormed) :
    d.update p = (d.writeAll (writes p).1, .ok ()) := by
  rw [update_eq_writes, writes_of_wellFormed h]

/-- One dictionary comes from another by merging all that was handed over, and in no other way. -/
structure Merged (d d' : Dictionary) (p : Partial) : Prop where
  /-- What was handed over for a locale and a name is the message there. -/
  given : ∀ l n m f, p.HasLeaf l n m → m.Makes f → d'.get? l n = some f
  /-- Every other message is as it was. -/
  kept : ∀ l n, (∀ m, ¬ p.HasLeaf l n m) → d'.get? l n = d.get? l n
  /-- There are the locales from before and those that were handed over. -/
  locales : ∀ l, d'.hasLocale l = true ↔ d.hasLocale l = true ∨ l ∈ Table.keys p

theorem merged_update (d : Dictionary) (hmapping : p.IsMapping) (h : p.WellFormed) :
    Merged d (d.update p).1 p := by
  rw [update_of_wellFormed d h]
  constructor
  · intro l n m f hleaf hf
    rw [get?_writeAll]
    cases hlast : lastLeaf? l n (writes p).1 with
    | none => exact absurd (leaf_mem_writes h hleaf hf) (lastLeaf?_eq_none_iff.mp hlast f)
    | some g =>
        -- The last function under this locale and name is made of the only message there.
        obtain ⟨m', hleaf', hg⟩ := exists_hasLeaf_of_mem (leaf_mem_of_lastLeaf? hlast)
        rw [hmapping.leaf_unique hleaf' hleaf] at hg
        rw [hg.unique hf, Option.some_or]
  · intro l n hnone
    apply get?_writeAll_of_not_mem
    intro f hmem
    obtain ⟨m, hleaf, -⟩ := exists_hasLeaf_of_mem hmem
    exact hnone m hleaf
  · intro l
    rw [hasLocale_writeAll, Bool.or_eq_true, any_locale_writes (writes_of_wellFormed h)]

/-! ## A merge that meets a flaw -/

theorem namesWrites_append {l : Key} {names : List (Key × Message)} (h : ∀ x ∈ names, x.2.Usable)
    (more : List (Key × Message)) :
    namesWrites l (names ++ more) =
      ((namesWrites l names).1 ++ (namesWrites l more).1, (namesWrites l more).2) := by
  induction names with
  | nil => rfl
  | cons x names ih =>
      obtain ⟨⟨f, hf⟩, hrest⟩ := List.forall_mem_cons.mp h
      rw [List.cons_append, namesWrites, namesWrites, Message.compile_eq_ok_iff.mpr hf, ih hrest]
      rfl

theorem writes_append (hp : p.WellFormed) (q : Partial) :
    writes (p ++ q) = ((writes p).1 ++ (writes q).1, (writes q).2) := by
  induction p with
  | nil => rfl
  | cons e p ih =>
      obtain ⟨⟨names, hsome, hnames⟩, hrest⟩ := List.forall_mem_cons.mp hp
      obtain ⟨l, _⟩ := e
      obtain rfl : _ = Except.ok names := hsome
      simp only [List.cons_append, writes, namesWrites_of_usable l hnames, ih hrest,
        List.append_assoc]

/-- The merge of something malformed does what the merge of the part before the first malformed item does,
and then fails. -/
theorem update_breaksOff {flaw : DictionaryFlaw} (d : Dictionary) (h : p.BreaksOff q flaw) :
    d.update p = ((d.update q).1, .error flaw) := by
  rw [update_eq_writes, update_eq_writes]
  cases h with
  | atLocale hbefore l text after =>
      rw [writes_append hbefore]
      simp [writes]
  | atMessage hbefore hnames hv l n more after =>
      rw [writes_append hbefore, writes_append hbefore, writes, namesWrites_append hnames, namesWrites,
        Message.compile_of_not_text hv]
      simp [writes, namesWrites_of_usable l hnames]

theorem update_ok_iff (d : Dictionary) : (d.update p).2 = .ok () ↔ p.WellFormed := by
  constructor
  · intro hok
    by_contra h
    obtain ⟨q, flaw, hq⟩ := Partial.exists_breaksOff h
    rw [update_breaksOff d hq] at hok
    simp at hok
  · intro h
    rw [update_of_wellFormed d h]

/-! ## Two merges -/

/-- No message of the one is for the locale and the name of a message of the other. -/
def Partial.Apart (p q : Partial) : Prop := ∀ l n m m', p.HasLeaf l n m → ¬ q.HasLeaf l n m'

/-- Two dictionaries answer alike all that can be asked: for messages, for a locale, for all locales. -/
structure Alike (d d' : Dictionary) : Prop where
  same : Same d d'
  sorted : d'.sortedLocales = d.sortedLocales

theorem get?_writeAll_comm (d : Dictionary) (h : p.Apart q) (l n : Key) :
    (d.writeAll ((writes p).1 ++ (writes q).1)).get? l n =
      (d.writeAll ((writes q).1 ++ (writes p).1)).get? l n := by
  rw [get?_writeAll, get?_writeAll, lastLeaf?_append, lastLeaf?_append]
  cases hp : lastLeaf? l n (writes p).1 with
  | none => rw [Option.or_none, Option.none_or]
  | some f =>
      cases hq : lastLeaf? l n (writes q).1 with
      | none => rw [Option.or_none, Option.none_or]
      | some g =>
          obtain ⟨m, hm, -⟩ := exists_hasLeaf_of_mem (leaf_mem_of_lastLeaf? hp)
          obtain ⟨m', hm', -⟩ := exists_hasLeaf_of_mem (leaf_mem_of_lastLeaf? hq)
          exact absurd hm' (h l n m m' hm)

theorem keys_writeAll_perm (d : Dictionary) (ws ws' : List Write) :
    (Table.keys (d.writeAll (ws ++ ws')).locales).Perm
      (Table.keys (d.writeAll (ws' ++ ws)).locales) := by
  obtain ⟨new, hkeys, hnodup, hnew⟩ := d.exists_keys_writeAll (ws ++ ws')
  obtain ⟨new', hkeys', hnodup', hnew'⟩ := d.exists_keys_writeAll (ws' ++ ws)
  have hlocales : ∀ l, (d.writeAll (ws ++ ws')).hasLocale l = (d.writeAll (ws' ++ ws)).hasLocale l := by
    intro l
    rw [hasLocale_writeAll, hasLocale_writeAll, List.any_append, List.any_append, Bool.or_comm (ws.any _)]
  -- Both bring the same new locales, each of them once.
  have hmem : ∀ l, l ∈ new ↔ l ∈ new' := by
    intro l
    have hsame : l ∈ Table.keys d.locales ++ new ↔ l ∈ Table.keys d.locales ++ new' := by
      rw [← hkeys, ← hkeys', ← hasLocale_iff_mem_keys, ← hasLocale_iff_mem_keys, hlocales]
    rw [List.mem_append, List.mem_append] at hsame
    constructor
    · intro hl
      exact (hsame.mp (Or.inr hl)).resolve_left (hnew l hl)
    · intro hl
      exact (hsame.mpr (Or.inr hl)).resolve_left (hnew' l hl)
  rw [hkeys, hkeys']
  exact ((List.perm_ext_iff_of_nodup hnodup hnodup').mpr hmem).append_left _

/-- Two merges without a leaf in common can be made in either order. -/
theorem alike_update_comm (d : Dictionary) (hp : p.WellFormed) (hq : q.WellFormed) (h : p.Apart q) :
    Alike ((d.update p).1.update q).1 ((d.update q).1.update p).1 := by
  simp only [update_of_wellFormed _ hp, update_of_wellFormed _ hq, ← writeAll_append]
  refine ⟨⟨fun l n => (get?_writeAll_comm d h l n).symm, fun l => ?_⟩, ?_⟩
  · rw [Bool.eq_iff_iff, hasLocale_iff_mem_keys, hasLocale_iff_mem_keys]
    exact (keys_writeAll_perm d _ _).mem_iff
  · exact sortedLocales_of_perm (keys_writeAll_perm d _ _)

/-! ## All of it -/

/-- What a merge does to a dictionary. -/
structure MergesLeaves (d : Dictionary) (p : Partial) : Prop where
  /-- If nothing is malformed, the merge succeeds and all is merged. -/
  succeeds : p.WellFormed → (d.update p).2 = .ok () ∧ Merged d (d.update p).1 p
  /-- Otherwise it fails by the flaw of the first malformed item, and what comes before that item is
  merged. -/
  fails : ¬ p.WellFormed → ∃ q flaw, p.BreaksOff q flaw ∧ (d.update p).2 = .error flaw ∧
    Merged d (d.update p).1 q
  /-- It can change places with another that succeeds and has no leaf in common with it. -/
  commutes : ∀ q : Partial, p.WellFormed → q.WellFormed → p.Apart q →
    Alike ((d.update p).1.update q).1 ((d.update q).1.update p).1

/-- Messages are merged leaf by leaf, up to the first malformed item. -/
theorem merges_leaves (d : Dictionary) (hp : p.IsMapping) : MergesLeaves d p where
  succeeds := by
    intro h
    exact ⟨by rw [update_of_wellFormed d h], merged_update d hp h⟩
  fails := by
    intro h
    obtain ⟨q, flaw, hq⟩ := Partial.exists_breaksOff h
    have hupdate := update_breaksOff d hq
    refine ⟨q, flaw, hq, by rw [hupdate], ?_⟩
    rw [hupdate]
    exact merged_update d (hq.isMapping hp) hq.wellFormed
  commutes := by
    intro q hp hq h
    exact alike_update_comm d hp hq h

/-- A French message, one that is none, and a German message. -/
def frenchPart : Partial :=
  [(.text "fr", .ok [(.text "alpha", .template "lettres"), (.text "min", .plain (.int 5))]),
    (.text "de", .ok [(.text "alpha", .template "Buchstaben")])]

/-- The first message is merged, the second is the flaw, and the third is not looked at. -/
theorem merges_leaves_french :
    frenchPart.IsMapping ∧ MergesLeaves bundled frenchPart ∧
      (bundled.update frenchPart).2 = .error (.badMessage "int") ∧
      (bundled.update frenchPart).1.get? (.text "fr") (.text "alpha") =
        some (templateMessage "lettres") ∧
      (bundled.update frenchPart).1.hasLocale (.text "de") = false := by
  have hmapping : frenchPart.IsMapping := by
    constructor
    · decide
    · intro l names hmem
      simp only [frenchPart, List.mem_cons, Prod.mk.injEq, Except.ok.injEq, List.not_mem_nil,
        or_false] at hmem
      rcases hmem with ⟨-, rfl⟩ | ⟨-, rfl⟩ <;> decide
  exact ⟨hmapping, merges_leaves bundled hmapping, rfl, rfl, rfl⟩

end Dictionary

end FieldRules
