import FieldRules.Proofs.Definition
import FieldRules.Proofs.Template

/-!
# The order of messages

`Resolves` says stage by stage where the message for a failed rule comes from: for each locale in turn
one function at most is considered (`Considers`), and the first that makes a text settles the message;
where none does, the definition's message for every locale is next, and then the default template, which
cannot fail. So there always is a message, and what comes behind the function that makes it does not
matter.
-/

namespace FieldRules

open Template

/-- The template of the message that a rule has when it has no other. -/
def defaultTemplate : String := "The \x7bfield\x7d value is not valid."

/-- The default template is filled in whatever the field is called. -/
theorem renderTemplate_defaultTemplate (field : String) :
    renderTemplate defaultTemplate field [] = .ok (defaultMessage field) := by
  have hpieces : pieces defaultTemplate.toList =
      "The ".toList.map .char ++ .field :: " value is not valid.".toList.map .char := by
    simp [defaultTemplate, pieces, place?]
  rw [renderTemplate, (divides_pieces _).render_eq, hpieces]
  simp [Piece.tooLong, Piece.filled, defaultMessage, String.ext_iff]

namespace Definition

/-- The function that is considered for a locale. -/
inductive Considers (d : Definition) (D : Dictionary) (locale : Key) : MessageFn → Prop
  /-- The definition has a message of its own. -/
  | own {m : Message} (hget : Table.get? d.messages locale = some m) (hgiven : m.isAbsent = false) :
      Considers d D locale m.call
  /-- It has none, but is shared, and the dictionary has a message under its name. -/
  | shared {f : MessageFn} (hnone : ∀ m, Table.get? d.messages locale = some m → m.isAbsent = true)
      (hshared : d.shared = true) (hget : D.get? locale (.text d.name) = some f) :
      Considers d D locale f

/-- The text of a message, where functions are considered for locales that are still to come. -/
inductive Resolves (d : Definition) (D : Dictionary) (field : String) (params : List Value) :
    List Key → String → Prop
  /-- The function considered for the next locale makes a text. -/
  | answered {locale : Key} {rest : List Key} {f : MessageFn} {text : String}
      (hf : d.Considers D locale f) (htext : f.text? field params = some text) :
      Resolves d D field params (locale :: rest) text
  /-- None is considered for the next locale, or it fails. -/
  | passed {locale : Key} {rest : List Key} {text : String}
      (hfail : ∀ f, d.Considers D locale f → f.text? field params = none)
      (hrest : Resolves d D field params rest text) :
      Resolves d D field params (locale :: rest) text
  /-- The message for every locale makes a text. -/
  | general {m : Message} {text : String} (hget : d.getMessage = some m)
      (hgiven : m.isAbsent = false) (htext : m.call.text? field params = some text) :
      Resolves d D field params [] text
  /-- There is no message for every locale, or it fails. -/
  | default {text : String}
      (hfail : ∀ m, d.getMessage = some m → m.isAbsent = false → m.call.text? field params = none)
      (htext : renderTemplate defaultTemplate field [] = .ok text) :
      Resolves d D field params [] text

/-- A message that is given is one that is there and is not taken for absent. -/
theorem filter_given_eq_some_iff {given : Option Message} {m : Message} :
    (given.filter fun m => !m.isAbsent) = some m ↔ given = some m ∧ m.isAbsent = false := by
  simp [Option.filter_eq_some_iff]

theorem ownMessage?_eq_some_iff {d : Definition} {locale : Key} {m : Message} :
    d.ownMessage? locale = some m ↔ Table.get? d.messages locale = some m ∧ m.isAbsent = false :=
  filter_given_eq_some_iff

theorem ownMessage?_eq_none_iff {d : Definition} {locale : Key} :
    d.ownMessage? locale = none ↔
      ∀ m, Table.get? d.messages locale = some m → m.isAbsent = true := by
  simp [ownMessage?, Option.filter_eq_none_iff]

/-- The function that is considered is the candidate. -/
theorem considers_iff {d : Definition} {D : Dictionary} {locale : Key} {f : MessageFn} :
    d.Considers D locale f ↔ d.candidate? D locale = some f := by
  unfold candidate?
  cases hown : d.ownMessage? locale with
  | some m =>
      have ⟨hget, hgiven⟩ := ownMessage?_eq_some_iff.mp hown
      constructor
      · rintro (⟨hget', -⟩ | ⟨hnone, -, -⟩)
        · rw [hget, Option.some.injEq] at hget'
          rw [hget']
        · simp [hnone m hget] at hgiven
      · rintro ⟨⟩
        exact .own hget hgiven
  | none =>
      have hnone := ownMessage?_eq_none_iff.mp hown
      constructor
      · rintro (⟨hget, hgiven⟩ | ⟨-, hshared, hget⟩)
        · simp [hnone _ hget] at hgiven
        · simp [hshared, hget]
      · intro h
        cases hshared : d.shared with
        | false => simp [hshared] at h
        | true => exact .shared hnone hshared (by simpa [hshared] using h)

/-- With no locale left the message for every locale settles it, or the default. -/
theorem resolves_nil_iff {d : Definition} {D : Dictionary} {field : String} {params : List Value}
    {text : String} :
    Resolves d D field params [] text ↔
      ((d.getMessage.filter fun m => !m.isAbsent).bind fun m => m.call.text? field params).getD
        (defaultMessage field) = text := by
  constructor
  · rintro (_ | _ | ⟨hget, hgiven, htext⟩ | ⟨hfail, htext⟩)
    · rw [filter_given_eq_some_iff.mpr ⟨hget, hgiven⟩, Option.bind_some, htext, Option.getD_some]
    · rw [renderTemplate_defaultTemplate, Except.ok.injEq] at htext
      have hnone : ((d.getMessage.filter fun m => !m.isAbsent).bind fun m => m.call.text? field params) =
          none := by
        rw [Option.bind_eq_none_iff]
        intro m hm
        obtain ⟨hget, hgiven⟩ := filter_given_eq_some_iff.mp hm
        exact hfail m hget hgiven
      rw [hnone, Option.getD_none, htext]
  · intro htext
    cases hgeneral : (d.getMessage.filter fun m => !m.isAbsent).bind fun m => m.call.text? field params with
    | some made =>
        obtain ⟨m, hm, hmade⟩ := Option.bind_eq_some_iff.mp hgeneral
        obtain ⟨hget, hgiven⟩ := filter_given_eq_some_iff.mp hm
        rw [hgeneral, Option.getD_some] at htext
        rw [htext] at hmade
        exact .general hget hgiven hmade
    | none =>
        rw [hgeneral, Option.getD_none] at htext
        have hdefault := renderTemplate_defaultTemplate field
        rw [htext] at hdefault
        refine .default (fun m hget hgiven => ?_) hdefault
        exact Option.bind_eq_none_iff.mp hgeneral m (filter_given_eq_some_iff.mpr ⟨hget, hgiven⟩)

/-- At a locale the candidate settles the message, if there is one and it makes a text. -/
theorem resolves_cons_iff {d : Definition} {D : Dictionary} {field : String} {params : List Value}
    {locale : Key} {rest : List Key} {text : String} :
    Resolves d D field params (locale :: rest) text ↔
      match (d.candidate? D locale).bind fun f => f.text? field params with
      | some made => made = text
      | none => Resolves d D field params rest text := by
  cases hmade : (d.candidate? D locale).bind fun f => f.text? field params with
  | some made =>
      obtain ⟨f, hf, hmade⟩ := Option.bind_eq_some_iff.mp hmade
      constructor
      · rintro (⟨hf', htext⟩ | ⟨hfail, -⟩)
        · rw [considers_iff, hf, Option.some.injEq] at hf'
          rw [← hf', hmade, Option.some.injEq] at htext
          exact htext
        · rw [hfail f (considers_iff.mpr hf)] at hmade
          cases hmade
      · rintro rfl
        exact .answered (considers_iff.mpr hf) hmade
  | none =>
      have hfail : ∀ f, d.Considers D locale f → f.text? field params = none := fun f hf =>
        Option.bind_eq_none_iff.mp hmade f (considers_iff.mp hf)
      constructor
      · rintro (⟨hf, htext⟩ | ⟨-, hrest⟩)
        · rw [hfail _ hf] at htext
          cases htext
        · exact hrest
      · exact .passed hfail

/-- The stages, gone through for any locales, end with the text that is chosen. -/
theorem resolves_iff {d : Definition} {D : Dictionary} {field : String} {params : List Value}
    {locales : List Key} {text : String} :
    Resolves d D field params locales text ↔
      ((locales.filterMap (d.candidate? D) ++
          (d.getMessage.filter fun m => !m.isAbsent).toList.map Message.call).findSome?
        fun f => f.text? field params).getD (defaultMessage field) = text := by
  induction locales with
  | nil =>
      rw [resolves_nil_iff]
      cases d.getMessage.filter fun m => !m.isAbsent with
      | none => rfl
      | some m => cases m.call.text? field params <;> simp
  | cons locale rest ih =>
      rw [resolves_cons_iff]
      cases hf : d.candidate? D locale with
      | none => simpa [hf] using ih
      | some f =>
          cases hmade : f.text? field params with
          | none => simpa [hf, hmade] using ih
          | some made => simp [hf, hmade]

/-- What functions are considered behind one that makes a text does not matter. -/
theorem Resolves.of_same_before {d d' : Definition} {D D' : Dictionary} {field : String}
    {params : List Value} {before after : List Key} {locale : Key} {f : MessageFn} {made text : String}
    (hsame : ∀ k ∈ before ++ [locale], ∀ g, d'.Considers D' k g ↔ d.Considers D k g)
    (hf : d.Considers D locale f) (hmade : f.text? field params = some made)
    (h : Resolves d D field params (before ++ locale :: after) text) :
    Resolves d' D' field params (before ++ locale :: after) text := by
  induction before with
  | nil =>
      have hhere := hsame locale List.mem_cons_self
      cases h with
      | answered hg htext => exact .answered ((hhere _).mpr hg) htext
      | passed hfail _ =>
          rw [hfail f hf] at hmade
          cases hmade
  | cons first before ih =>
      have hhere := hsame first List.mem_cons_self
      cases h with
      | answered hg htext => exact .answered ((hhere _).mpr hg) htext
      | passed hfail hrest =>
          refine .passed (fun g hg => hfail g ((hhere g).mp hg)) (ih ?_ hrest)
          exact fun k hk => hsame k (List.mem_cons_of_mem first hk)

/-- The locales that are gone through: the one that is asked for, and English after another. -/
theorem consideredLocales_eq (locale : Key) :
    consideredLocales locale =
      locale :: if locale = .text englishLocale then [] else [.text englishLocale] := by
  unfold consideredLocales
  split <;> rfl

/-- The choice of a message. -/
structure ResolvedInOrder (d : Definition) (D : Dictionary) (field : String) (params : List Value)
    (locale : Key) : Prop where
  /-- The message is the one text that the stages end with. -/
  staged : ∀ text, d.resolveMessage D field params locale = text ↔
    Resolves d D field params
      (locale :: if locale = .text englishLocale then [] else [.text englishLocale]) text
  /-- A function that makes a text settles the message, whatever comes behind it: another definition
  and another dictionary that are the same up to there give the same message. -/
  settled : ∀ (before after : List Key) (k : Key) (f : MessageFn) (made : String),
    (locale :: if locale = .text englishLocale then [] else [.text englishLocale]) =
      before ++ k :: after →
    d.Considers D k f → f.text? field params = some made →
    ∀ (d' : Definition) (D' : Dictionary),
      (∀ j ∈ before ++ [k], ∀ g, d'.Considers D' j g ↔ d.Considers D j g) →
      d'.resolveMessage D' field params locale = d.resolveMessage D field params locale
  /-- Where the definition has a message of its own, failing or not, what the dictionary has for that
  locale under its name does not matter. -/
  kept : ∀ D' : Dictionary,
    (∀ k, (∀ m, Table.get? d.messages k = some m → m.isAbsent = true) →
      D'.get? k (.text d.name) = D.get? k (.text d.name)) →
    d.resolveMessage D' field params locale = d.resolveMessage D field params locale

/-- The message for a failed rule is looked up in its order, and there always is one. -/
theorem resolved_in_order (d : Definition) (D : Dictionary) (field : String) (params : List Value)
    (locale : Key) : ResolvedInOrder d D field params locale := by
  -- Any definition and dictionary end with the text that is chosen.
  have hstaged : ∀ (d : Definition) (D : Dictionary) (text : String),
      d.resolveMessage D field params locale = text ↔
        Resolves d D field params
          (locale :: if locale = .text englishLocale then [] else [.text englishLocale]) text := by
    intro d D text
    rw [← consideredLocales_eq, resolves_iff]
    rfl
  refine ⟨hstaged d D, ?_, ?_⟩
  · intro before after k f made hlocales hf hmade d' D' hsame
    have hchosen := (hstaged d D _).mp rfl
    rw [hstaged d' D', hlocales]
    rw [hlocales] at hchosen
    exact hchosen.of_same_before hsame hf hmade
  · intro D' hsame
    refine resolveMessage_congr_on (fun k _ => ?_) rfl field params
    unfold candidate?
    cases hown : d.ownMessage? k with
    | some m => rfl
    | none => rw [hsame k (ownMessage?_eq_none_iff.mp hown)]

end Definition

end FieldRules
