import FieldRules.Builtin
import FieldRules.Proofs.Definition
import FieldRules.Proofs.Dictionary

/-!
# Registering in the catalog

A registration comes to one of four things (`register_cases`): the name is taken, the definition is
malformed, a message turns out to be none while the messages are merged, or the definition is kept.
Only the third leaves something behind, and only a definition that is handed over in its kept form can
bring it about, since the messages of all others are checked before any is merged.

`register_refused_same_iff` says exactly when a registration that is refused leaves the dictionary as
it was.
-/

namespace FieldRules

/-- The form in which the catalog keeps a definition: its messages are in the dictionary. -/
def Definition.asShared (d : Definition) : Definition := { d with messages := [], shared := true }

/-- The form in which an overlay keeps a definition. -/
def Definition.asOwn (d : Definition) : Definition := { d with shared := false }

namespace Catalog

/-- Messages that are functions are merged without a flaw. -/
theorem writes_messageLeaves_of_fn {d : Definition} (h : ∀ e ∈ d.messages, ∃ f, e.2 = .fn f) :
    (Dictionary.writes (messageLeaves d)).2 = .ok () := by
  unfold messageLeaves
  generalize d.messages = ms at h
  induction ms with
  | nil => rfl
  | cons e ms ih =>
      obtain ⟨hfn, hrest⟩ := List.forall_mem_cons.mp h
      obtain ⟨f, hf⟩ := hfn
      rw [List.map_cons, Dictionary.writes, hf]
      exact ih hrest

/-! ## What a registration comes to -/

variable {c : Catalog} {dictionary : Dictionary} {name : String} {supplied : Supplied}

theorem register_taken (h : c.has name = true) :
    c.register dictionary name supplied = (c, dictionary, .error (.duplicate name)) := by
  rw [register, if_pos h]

theorem register_malformed {e : SetupError} (h : c.has name = false)
    (hd : Definition.normalize name supplied = .error e) :
    c.register dictionary name supplied = (c, dictionary, .error e) := by
  rw [register, if_neg (by simp [h]), hd]

theorem register_flawed {d : Definition} {flaw : DictionaryFlaw} (h : c.has name = false)
    (hd : Definition.normalize name supplied = .ok d)
    (hflaw : (Dictionary.writes (messageLeaves d)).2 = .error flaw) :
    c.register dictionary name supplied =
      (c, dictionary.writeAll (Dictionary.writes (messageLeaves d)).1, .error (.dictionary flaw)) := by
  rw [register, if_neg (by simp [h]), hd]
  simp only [Dictionary.update_eq_writes, hflaw]

theorem register_kept {d : Definition} (h : c.has name = false)
    (hd : Definition.normalize name supplied = .ok d)
    (hok : (Dictionary.writes (messageLeaves d)).2 = .ok ()) :
    c.register dictionary name supplied =
      (⟨Table.put c.definitions name d.asShared⟩,
        dictionary.writeAll (Dictionary.writes (messageLeaves d)).1, .ok d.asShared) := by
  rw [register, if_neg (by simp [h]), hd]
  simp only [Dictionary.update_eq_writes, hok]
  rfl

/-- What a registration comes to, with all that it does. -/
theorem register_cases (c : Catalog) (dictionary : Dictionary) (name : String)
    (supplied : Supplied) :
    (c.has name = true ∧
      c.register dictionary name supplied = (c, dictionary, .error (.duplicate name))) ∨
    (∃ e, c.has name = false ∧ Definition.normalize name supplied = .error e ∧
      c.register dictionary name supplied = (c, dictionary, .error e)) ∨
    (∃ d flaw, c.has name = false ∧ Definition.normalize name supplied = .ok d ∧
      (Dictionary.writes (messageLeaves d)).2 = .error flaw ∧
      c.register dictionary name supplied =
        (c, dictionary.writeAll (Dictionary.writes (messageLeaves d)).1,
          .error (.dictionary flaw))) ∨
    (∃ d, c.has name = false ∧ Definition.normalize name supplied = .ok d ∧
      c.register dictionary name supplied =
        (⟨Table.put c.definitions name d.asShared⟩,
          dictionary.writeAll (Dictionary.writes (messageLeaves d)).1, .ok d.asShared)) := by
  cases htaken : c.has name with
  | true => exact Or.inl ⟨rfl, register_taken htaken⟩
  | false =>
      cases hd : Definition.normalize name supplied with
      | error e => exact Or.inr (Or.inl ⟨e, rfl, rfl, register_malformed htaken hd⟩)
      | ok d =>
          cases hmerge : (Dictionary.writes (messageLeaves d)).2 with
          | error flaw =>
              exact Or.inr (Or.inr (Or.inl
                ⟨d, flaw, rfl, rfl, hmerge, register_flawed htaken hd hmerge⟩))
          | ok u => exact Or.inr (Or.inr (Or.inr ⟨d, rfl, rfl, register_kept htaken hd hmerge⟩))

theorem has_eq_isSome_get? (c : Catalog) (name : String) : c.has name = (c.get? name).isSome := by
  rw [Bool.eq_iff_iff]
  exact Table.has_iff.trans Table.get?_isSome_iff.symm

/-- A registration that is not refused keeps the definition that was handed over, and answers it. -/
theorem register_result :
    (c.register dictionary name supplied).2.2.toOption =
      if (c.register dictionary name supplied).2.2.isOk then
        (Definition.normalize name supplied).toOption.map Definition.asShared
      else none := by
  rcases register_cases c dictionary name supplied with
    ⟨-, hr⟩ | ⟨e, -, -, hr⟩ | ⟨d, flaw, -, -, -, hr⟩ | ⟨d, -, hd, hr⟩
  · rw [hr]; rfl
  · rw [hr]; rfl
  · rw [hr]; rfl
  · rw [hr, hd]; rfl

/-- After a registration the catalog has what it had, or else the definition that was kept. -/
theorem get?_register (n : String) :
    (c.register dictionary name supplied).1.get? n = (c.get? n).or
      (if name = n then (c.register dictionary name supplied).2.2.toOption else none) := by
  rcases register_cases c dictionary name supplied with
    ⟨-, hr⟩ | ⟨e, -, -, hr⟩ | ⟨d, flaw, -, -, -, hr⟩ | ⟨d, hfree, -, hr⟩
  · simp [hr, Except.toOption]
  · simp [hr, Except.toOption]
  · simp [hr, Except.toOption]
  · have hnone : Table.get? c.definitions name = none := by
      rw [has_eq_isSome_get?] at hfree
      exact Option.isNone_iff_eq_none.mp (Option.isSome_eq_false_iff.mp hfree)
    rw [hr]
    simp only [get?, Table.get?_put, Except.toOption]
    by_cases hn : name = n
    · subst hn
      simp [hnone]
    · simp [hn]

/-- A registration that is refused leaves the catalog as it was. It leaves the dictionary as it was
exactly if whatever it merged before the flaw was there already; above all if the definition was not
handed over in its kept form, for then nothing is merged. -/
theorem register_refused_same_iff {e : SetupError}
    (h : (c.register dictionary name supplied).2.2 = .error e) :
    (c.register dictionary name supplied).1 = c ∧
      (Dictionary.Same dictionary (c.register dictionary name supplied).2.1 ↔
        ∀ d, c.has name = false → Definition.normalize name supplied = .ok d →
          dictionary.Holds (Dictionary.writes (messageLeaves d)).1) ∧
      ((∀ given, supplied ≠ .definition given) →
        (c.register dictionary name supplied).2.1 = dictionary) := by
  have hrefl : Dictionary.Same dictionary dictionary := ⟨fun _ _ => rfl, fun _ => rfl⟩
  rcases register_cases c dictionary name supplied with
    ⟨htaken, hr⟩ | ⟨e', -, hd, hr⟩ | ⟨d, flaw, hfree, hd, hmerge, hr⟩ | ⟨d, -, -, hr⟩
  · -- The name is taken, so nothing was looked at.
    rw [hr]
    refine ⟨rfl, ⟨fun _ d hfree => ?_, fun _ => hrefl⟩, fun _ => rfl⟩
    rw [htaken] at hfree
    simp at hfree
  · -- There is no definition that could be merged.
    rw [hr]
    refine ⟨rfl, ⟨fun _ d _ hok => ?_, fun _ => hrefl⟩, fun _ => rfl⟩
    rw [hd] at hok
    simp at hok
  · rw [hr]
    refine ⟨rfl, ?_, fun hkept => ?_⟩
    · rw [Dictionary.same_writeAll_iff]
      constructor
      · intro hholds d' _ hd'
        rw [hd, Except.ok.injEq] at hd'
        rwa [← hd']
      · intro hall
        exact hall d hfree hd
    · -- Messages that were checked before are no flaw.
      have hfn := Definition.fn_of_mem_normalize hd hkept
      rw [writes_messageLeaves_of_fn hfn] at hmerge
      simp at hmerge
  · rw [hr] at h
    simp at h

/-- A definition in its kept form whose second message is none. -/
def halfGood : Definition where
  name := "fruit"
  validate := Validator.const (.bool false)
  messages := [(.text "fr", .template "un fruit"), (.text "de", .plain (.int 5))]

/-- The second message of `halfGood` is found to be none after the first was merged. -/
theorem register_halfGood :
    Builtin.catalog.register Dictionary.bundled "fruit" (.definition halfGood) =
      (Builtin.catalog,
        Dictionary.bundled.writeAll (Dictionary.writes (messageLeaves halfGood)).1,
        .error (.dictionary (.badMessage "int"))) := by
  have hfree : Builtin.catalog.has "fruit" = false := by decide
  exact register_flawed hfree rfl rfl

theorem register_refused_same_iff_halfGood :
    let r := Builtin.catalog.register Dictionary.bundled "fruit" (.definition halfGood)
    r.2.2 = .error (.dictionary (.badMessage "int")) ∧ r.1 = Builtin.catalog ∧
      (Dictionary.Same Dictionary.bundled r.2.1 ↔
        ∀ d, Builtin.catalog.has "fruit" = false →
          Definition.normalize "fruit" (.definition halfGood) = .ok d →
          Dictionary.bundled.Holds (Dictionary.writes (messageLeaves d)).1) := by
  have hrefused : (Builtin.catalog.register Dictionary.bundled "fruit" (.definition halfGood)).2.2 =
      .error (.dictionary (.badMessage "int")) := by
    rw [register_halfGood]
  have h := register_refused_same_iff hrefused
  exact ⟨hrefused, h.1, h.2.1⟩

/-- The registration of `halfGood` is refused, and yet the dictionary has a new message and a new
locale. -/
theorem register_halfGood_not_same :
    let r := Builtin.catalog.register Dictionary.bundled "fruit" (.definition halfGood)
    r.2.2 = .error (.dictionary (.badMessage "int")) ∧
      Dictionary.bundled.get? (.text "fr") (.text "fruit") = none ∧
      (r.2.1.get? (.text "fr") (.text "fruit")).isSome = true ∧
      Dictionary.bundled.hasLocale (.text "de") = false ∧ r.2.1.hasLocale (.text "de") = true ∧
      ¬ Dictionary.Same Dictionary.bundled r.2.1 := by
  intro r
  have hr : r = _ := register_halfGood
  have hold : Dictionary.bundled.get? (.text "fr") (.text "fruit") = none := rfl
  have hnew : (r.2.1.get? (.text "fr") (.text "fruit")).isSome = true := by
    rw [hr, Dictionary.get?_writeAll]
    rfl
  have hopened : r.2.1.hasLocale (.text "de") = true := by
    rw [hr, Dictionary.hasLocale_writeAll]
    rfl
  refine ⟨by rw [hr], hold, hnew, rfl, hopened, fun hsame => ?_⟩
  rw [hsame.leaves, hold] at hnew
  simp at hnew

end Catalog

/-! ## Overlays -/

namespace Overlay

theorem register_result (o : Overlay) (name : String) (supplied : Supplied) :
    (o.register name supplied).2.toOption =
      (Definition.normalize name supplied).toOption.map Definition.asOwn := by
  unfold register
  cases Definition.normalize name supplied <;> rfl

/-- After a registration the overlay has the definition that was kept, or else what it had. -/
theorem get?_register (o : Overlay) (name : String) (supplied : Supplied) (n : String) :
    Table.get? (o.register name supplied).1.definitions n =
      (if name = n then (o.register name supplied).2.toOption else none).or
        (Table.get? o.definitions n) := by
  unfold register
  cases Definition.normalize name supplied with
  | error e => simp [Except.toOption]
  | ok d =>
      simp only [Table.get?_put, Except.toOption]
      split <;> rfl

theorem register_refused {o : Overlay} {name : String} {supplied : Supplied} {e : SetupError}
    (h : (o.register name supplied).2 = .error e) : (o.register name supplied).1 = o := by
  unfold register at h ⊢
  cases hd : Definition.normalize name supplied with
  | error e' => rfl
  | ok d =>
      rw [hd] at h
      simp at h

end Overlay

end FieldRules
