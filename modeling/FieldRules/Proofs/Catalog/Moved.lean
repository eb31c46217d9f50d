import FieldRules.Proofs.Catalog.Register

/-!
# Messages that move into the dictionary

The catalog keeps a definition without its messages: registering moves them into the dictionary, under
the name of the definition. An overlay keeps the same definition together with its messages. Nobody
who asks for a message can tell the two apart (`resolveMessage_register`), provided that the
dictionary had no message under that name in a locale for which the definition brings none.

The argument is about one locale at a time: what is merged under a locale is what the definition has
for it (`lastLeaf?_messageLeaves`), so the dictionary's candidate is the definition's own
(`candidate?_moved`).
-/

namespace FieldRules

namespace Definition

/-- A definition without messages of its own, but shared, has the messages of the dictionary. -/
theorem candidate?_asShared (d : Definition) (D : Dictionary) (locale : Key) :
    d.asShared.candidate? D locale = D.get? locale (.text d.name) := rfl

end Definition

namespace Catalog

/-! ## What is merged -/

/-- The messages that a definition brings into the dictionary are its own, under its name. -/
theorem lastLeaf?_messageLeaves {d : Definition} (hfn : ∀ e ∈ d.messages, ∃ f, e.2 = .fn f)
    (hkeys : (Table.keys d.messages).Nodup) (locale name : Key) :
    Dictionary.lastLeaf? locale name (Dictionary.writes (messageLeaves d)).1 =
      if .text d.name = name then (Table.get? d.messages locale).map Message.call else none := by
  unfold messageLeaves
  generalize d.messages = ms at hfn hkeys
  -- One locale after the other; that the locales are distinct makes the only leaf the last one.
  induction ms with
  | nil => simp [Dictionary.writes, Dictionary.lastLeaf?]
  | cons e ms ih =>
      obtain ⟨⟨f, hf⟩, hrest⟩ := List.forall_mem_cons.mp hfn
      have hcons : Table.keys (e :: ms) = e.1 :: Table.keys ms := rfl
      rw [hcons, List.nodup_cons] at hkeys
      have hwrites : (Dictionary.writes ((e :: ms).map fun e => (e.1, .ok [(.text d.name, e.2)]))).1 =
          .opening e.1 :: .leaf e.1 (.text d.name) f ::
            (Dictionary.writes (ms.map fun e => (e.1, .ok [(.text d.name, e.2)]))).1 := by
        rw [List.map_cons, Dictionary.writes, hf]
        rfl
      rw [hwrites, Dictionary.lastLeaf?, Dictionary.lastLeaf?, ih hrest hkeys.2, Table.get?_cons]
      by_cases hname : .text d.name = name
      · by_cases hlocale : e.1 = locale
        · have hnone : Table.get? ms locale = none := by
            rw [← Option.not_isSome_iff_eq_none, Table.get?_isSome_iff, ← hlocale]
            exact hkeys.1
          simp [hname, hlocale, hnone, hf, Message.call]
        · simp [hname, hlocale]
      · simp [hname]

variable {c : Catalog} {dictionary : Dictionary} {name : String} {supplied : Supplied}
  {d : Definition}

/-- Of a definition that was not handed over in its kept form the messages are found under its name,
and under every other name what was there. -/
theorem get?_writeAll_messageLeaves (hd : Definition.normalize name supplied = .ok d)
    (hform : ∀ given, supplied ≠ .definition given) (locale other : Key) :
    (dictionary.writeAll (Dictionary.writes (messageLeaves d)).1).get? locale other =
      if .text name = other then
        ((Table.get? d.messages locale).map Message.call).or (dictionary.get? locale other)
      else dictionary.get? locale other := by
  rw [Dictionary.get?_writeAll, lastLeaf?_messageLeaves (Definition.fn_of_mem_normalize hd hform)
    (Definition.nodup_keys_normalize hd hform), Definition.name_normalize hd]
  split <;> rfl

/-- A definition that was moved into the catalog has for every locale the message that it had, if the
dictionary has no other message under its name. -/
theorem candidate?_moved (hd : Definition.normalize name supplied = .ok d)
    (hform : ∀ given, supplied ≠ .definition given)
    (hclean : ∀ locale, locale ∉ Table.keys d.messages → dictionary.get? locale (.text name) = none)
    (D : Dictionary) (locale : Key) :
    d.asShared.candidate? (dictionary.writeAll (Dictionary.writes (messageLeaves d)).1) locale =
      d.candidate? D locale := by
  rw [Definition.candidate?_asShared, Definition.name_normalize hd,
    get?_writeAll_messageLeaves hd hform, if_pos rfl,
    Definition.candidate?_of_own (Definition.shared_normalize hd hform),
    Definition.ownMessage?_of_fn (Definition.fn_of_mem_normalize hd hform)]
  cases hget : Table.get? d.messages locale with
  | some m => rfl
  | none =>
      have hmissing : locale ∉ Table.keys d.messages := by
        rw [← Table.get?_isSome_iff, hget]
        simp
      simp [hclean locale hmissing]

/-- Registering for everybody keeps the messages of a definition. If the name is free, the definition
is spelled out or a bare predicate, and the dictionary has no message under the name in a locale for
which the definition brings none, then the registration succeeds; and although the catalog keeps the
definition without its messages, it has the same message as the definition in an engine's own keeping,
for every field, all parameters and every locale. Under every other name the dictionary has what it
had. -/
theorem resolveMessage_register (hfree : c.has name = false)
    (hform : ∀ given, supplied ≠ .definition given)
    (hd : Definition.normalize name supplied = .ok d)
    (hclean : ∀ locale, locale ∉ Table.keys d.messages →
      dictionary.get? locale (.text name) = none) :
    let registered := c.register dictionary name supplied
    ∃ kept, registered.2.2 = .ok kept ∧ registered.1.get? name = some kept ∧ kept.messages = [] ∧
      (∀ o : Overlay, Table.get? (o.register name supplied).1.definitions name = some d) ∧
      (∀ D field params locale,
        kept.resolveMessage registered.2.1 field params locale =
          d.resolveMessage D field params locale) ∧
      ∀ locale other, other ≠ .text name →
        registered.2.1.get? locale other = dictionary.get? locale other := by
  intro registered
  have hmerged := writes_messageLeaves_of_fn (Definition.fn_of_mem_normalize hd hform)
  have hr : registered = _ := register_kept hfree hd hmerged
  refine ⟨d.asShared, ?_, ?_, rfl, ?_, ?_, ?_⟩
  · rw [hr]
  · rw [hr]
    exact Table.get?_put_self _ _ _
  · -- An overlay keeps the definition as it is, since it belongs to nobody else.
    intro o
    have hown : d.asOwn = d := by
      have hshared := Definition.shared_normalize hd hform
      unfold Definition.asOwn
      rw [← hshared]
    rw [Overlay.get?_register, if_pos rfl, Overlay.register_result, hd]
    simp [Except.toOption, hown]
  · intro D field params locale
    rw [hr]
    exact Definition.resolveMessage_congr (candidate?_moved hd hform hclean D) rfl field params locale
  · intro locale other hother
    rw [hr, get?_writeAll_messageLeaves hd hform, if_neg (Ne.symm hother)]

/-- A definition spelled out, with a French message that fails and an English one. -/
def fruitParts : Supplied :=
  .parts (some (Validator.const (.bool false))) none
    (.mapping [(.text "fr", .fn fun _ _ => .error .wrongKind),
      (.text "en", .template "The \x7bfield\x7d is no fruit.")])

/-- What is made of `fruitParts`. -/
def fruit : Definition where
  name := "fruit"
  validate := Validator.const (.bool false)
  messages := [(.text "fr", .fn fun _ _ => .error .wrongKind),
    (.text "en", .fn (templateMessage "The \x7bfield\x7d is no fruit."))]

/-- The French message fails in the dictionary as it did in the definition, and the English one stands
in for it. -/
theorem resolveMessage_register_fruit :
    let registered := Builtin.catalog.register Dictionary.bundled "fruit" fruitParts
    Builtin.catalog.has "fruit" = false ∧ Definition.normalize "fruit" fruitParts = .ok fruit ∧
      ∃ kept, registered.2.2 = .ok kept ∧ registered.1.get? "fruit" = some kept ∧
        kept.messages = [] ∧
        (∀ D field params locale,
          kept.resolveMessage registered.2.1 field params locale =
            fruit.resolveMessage D field params locale) ∧
        kept.resolveMessage registered.2.1 "peach" [] (.text "fr") = "The peach is no fruit." := by
  intro registered
  have hfree : Builtin.catalog.has "fruit" = false := by decide
  have hform : ∀ given, fruitParts ≠ .definition given := by
    intro given h
    cases h
  have hd : Definition.normalize "fruit" fruitParts = .ok fruit := rfl
  have hclean : ∀ locale, locale ∉ Table.keys fruit.messages →
      Dictionary.bundled.get? locale (.text "fruit") = none := by
    intro locale hlocale
    have hnone : Table.get? Dictionary.bundled.locales locale = none := by
      rw [← Option.not_isSome_iff_eq_none, Table.get?_isSome_iff]
      intro hmem
      rw [List.mem_singleton.mp hmem] at hlocale
      exact hlocale (by decide)
    unfold Dictionary.get?
    rw [hnone]
    rfl
  obtain ⟨kept, hkept, hget, hbare, -, hmessage, -⟩ :=
    resolveMessage_register hfree hform hd hclean
  refine ⟨hfree, hd, kept, hkept, hget, hbare, hmessage, ?_⟩
  rw [hmessage Dictionary.bundled]
  decide +kernel

end Catalog

end FieldRules
