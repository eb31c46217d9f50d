import FieldRules.Definition
import FieldRules.Proofs.Table

/-!
# Definitions and their messages

What `normalize` makes of what was handed over: the definition has its name, and unless it was handed
over in its kept form, it belongs to nobody else yet and its messages are functions, for distinct
locales.

A message is chosen among candidates, one for each locale that is considered. For a definition that is
not shared the candidates are its own messages, so the dictionary makes no difference
(`resolveMessage_of_own`).
-/

namespace FieldRules

/-- What is handed over as a definition has a message for a locale. -/
def Supplied.Gives : Supplied → Key → Prop
  | .definition d, locale => locale ∈ Table.keys d.messages
  | .parts _ _ (.mapping ms), locale => locale ∈ Table.keys ms
  | _, _ => False

namespace Definition

/-! ## What was handed over -/

/-- The function of the first message comes first, then those of the others. -/
theorem of_compileAll_cons {m : Key × Message} {ms compiled : List (Key × Message)}
    (h : compileAll (m :: ms) = .ok compiled) :
    ∃ f fs, compileAll ms = .ok fs ∧ compiled = (m.1, .fn f) :: fs := by
  rw [compileAll] at h
  cases hm : m.2.compile with
  | error flaw => simp [hm, bind, Except.bind] at h
  | ok f =>
      cases hrest : compileAll ms with
      | error flaw => simp [hm, hrest, bind, Except.bind] at h
      | ok fs =>
          simp only [hm, hrest, bind, Except.bind, pure, Except.pure, Except.ok.injEq] at h
          exact ⟨f, fs, rfl, h.symm⟩

theorem fn_of_mem_compileAll {ms compiled : List (Key × Message)} (h : compileAll ms = .ok compiled) :
    ∀ e ∈ compiled, ∃ f, e.2 = .fn f := by
  induction ms generalizing compiled with
  | nil =>
      rw [compileAll, Except.ok.injEq] at h
      simp [← h]
  | cons m ms ih =>
      obtain ⟨f, fs, hrest, rfl⟩ := of_compileAll_cons h
      intro e he
      rcases List.mem_cons.mp he with rfl | he
      · exact ⟨f, rfl⟩
      · exact ih hrest e he

theorem keys_compileAll {ms compiled : List (Key × Message)} (h : compileAll ms = .ok compiled) :
    Table.keys compiled = Table.keys ms := by
  induction ms generalizing compiled with
  | nil =>
      rw [compileAll, Except.ok.injEq] at h
      rw [← h]
  | cons m ms ih =>
      obtain ⟨f, fs, hrest, rfl⟩ := of_compileAll_cons h
      have htail : Table.keys fs = Table.keys ms := ih hrest
      simp only [Table.keys, List.map_cons] at htail ⊢
      rw [htail]

/-- A definition that was spelled out has its name and belongs to nobody else yet, and its messages, if
there are any, are for distinct locales and were all checked. -/
theorem of_ofParts {name : String} {validate : Option Validator} {getMessage : Option Message}
    {messages : SuppliedMessages} {d : Definition}
    (h : ofParts name validate getMessage messages = .ok d) :
    d.name = name ∧ d.shared = false ∧
      (d.messages = [] ∨ ∃ ms, compileAll (Table.ofPairs ms) = .ok d.messages) := by
  unfold ofParts at h
  simp only at h
  split at h
  -- Accepted are a definition without messages and one with a mapping of them; all else is refused.
  case h_6 =>
    rw [Except.ok.injEq] at h
    rw [← h]
    exact ⟨rfl, rfl, Or.inl rfl⟩
  case h_7 ms _ _ =>
    split at h
    · cases h
    · rename_i compiled hcompiled
      rw [Except.ok.injEq] at h
      rw [← h]
      exact ⟨rfl, rfl, Or.inr ⟨ms, hcompiled⟩⟩
  all_goals cases h

/-- The messages of a definition are functions unless it was handed over in its kept form. -/
theorem fn_of_mem_normalize {name : String} {supplied : Supplied} {d : Definition}
    (h : normalize name supplied = .ok d) (hkept : ∀ given, supplied ≠ .definition given) :
    ∀ e ∈ d.messages, ∃ f, e.2 = .fn f := by
  cases supplied with
  | definition given => exact absurd rfl (hkept given)
  | parts validate getMessage messages =>
      rcases (of_ofParts h).2.2 with hnone | ⟨ms, hms⟩
      · simp [hnone]
      · exact fn_of_mem_compileAll hms
  | predicate v =>
      simp only [normalize, Except.ok.injEq] at h
      simp [← h]
  | other kind => simp [normalize] at h

theorem name_normalize {name : String} {supplied : Supplied} {d : Definition}
    (h : normalize name supplied = .ok d) : d.name = name := by
  cases supplied with
  | definition given =>
      simp only [normalize, Except.ok.injEq] at h
      rw [← h]
  | parts validate getMessage messages => exact (of_ofParts h).1
  | predicate v =>
      simp only [normalize, Except.ok.injEq] at h
      rw [← h]
  | other kind => simp [normalize] at h

/-- A definition belongs to nobody else yet unless it was handed over in its kept form. -/
theorem shared_normalize {name : String} {supplied : Supplied} {d : Definition}
    (h : normalize name supplied = .ok d) (hform : ∀ given, supplied ≠ .definition given) :
    d.shared = false := by
  cases supplied with
  | definition given => exact absurd rfl (hform given)
  | parts validate getMessage messages => exact (of_ofParts h).2.1
  | predicate v =>
      rw [normalize, Except.ok.injEq] at h
      rw [← h]
  | other kind => simp [normalize] at h

/-- The messages of a definition are for distinct locales unless it was handed over in its kept
form. -/
theorem nodup_keys_normalize {name : String} {supplied : Supplied} {d : Definition}
    (h : normalize name supplied = .ok d) (hform : ∀ given, supplied ≠ .definition given) :
    (Table.keys d.messages).Nodup := by
  cases supplied with
  | definition given => exact absurd rfl (hform given)
  | parts validate getMessage messages =>
      rcases (of_ofParts h).2.2 with hnone | ⟨ms, hms⟩
      · rw [hnone]
        exact List.nodup_nil
      · rw [keys_compileAll hms]
        exact Table.nodup_keys_ofPairs ms
  | predicate v =>
      rw [normalize, Except.ok.injEq] at h
      rw [← h]
      exact List.nodup_nil
  | other kind => simp [normalize] at h

/-- A definition has messages only for locales for which they were handed over. -/
theorem gives_of_mem_normalize {name : String} {supplied : Supplied} {d : Definition}
    (h : normalize name supplied = .ok d) {locale : Key} (hlocale : locale ∈ Table.keys d.messages) :
    supplied.Gives locale := by
  cases supplied with
  | definition given =>
      simp only [normalize, Except.ok.injEq] at h
      rw [← h] at hlocale
      exact hlocale
  | parts validate getMessage messages =>
      have hnone : d.messages ≠ [] := by
        intro hnil
        simp [hnil, Table.keys] at hlocale
      have hparts : ofParts name validate getMessage messages = .ok d := h
      clear h
      unfold ofParts at hparts
      simp only at hparts
      split at hparts
      -- Of the two forms that are accepted only the one with a mapping brings messages.
      case h_6 =>
        rw [Except.ok.injEq] at hparts
        exact absurd (by rw [← hparts]) hnone
      case h_7 ms _ _ =>
        split at hparts
        · cases hparts
        · rename_i compiled hcompiled
          rw [Except.ok.injEq] at hparts
          rw [← hparts, keys_compileAll hcompiled, Table.mem_keys_ofPairs] at hlocale
          exact hlocale
      all_goals cases hparts
  | predicate v =>
      rw [normalize, Except.ok.injEq] at h
      simp [← h, Table.keys] at hlocale
  | other kind => simp [normalize] at h

/-! ## Messages and where they are looked up -/

theorem ownMessage?_of_fn {d : Definition} (h : ∀ e ∈ d.messages, ∃ f, e.2 = .fn f) (locale : Key) :
    d.ownMessage? locale = Table.get? d.messages locale := by
  unfold ownMessage?
  cases hget : Table.get? d.messages locale with
  | none => rfl
  | some m =>
      -- A function is a message, so none of the messages is taken for absent.
      obtain ⟨f, hf⟩ := h (locale, m) (Table.mem_of_get?_eq_some hget)
      simp only at hf
      rw [hf]
      rfl

/-- Which message is chosen depends on the candidates for the considered locales alone. -/
theorem resolveMessage_congr_on {d d' : Definition} {D D' : Dictionary} {locale : Key}
    (hcandidates : ∀ k ∈ consideredLocales locale, d'.candidate? D' k = d.candidate? D k)
    (hgeneral : d'.getMessage = d.getMessage) (field : String) (params : List Value) :
    d'.resolveMessage D' field params locale = d.resolveMessage D field params locale := by
  have hlocalized : (consideredLocales locale).filterMap (d'.candidate? D') =
      (consideredLocales locale).filterMap (d.candidate? D) :=
    List.filterMap_congr hcandidates
  unfold resolveMessage
  rw [hlocalized, hgeneral]

theorem resolveMessage_congr {d d' : Definition} {D D' : Dictionary}
    (hcandidates : ∀ locale, d'.candidate? D' locale = d.candidate? D locale)
    (hgeneral : d'.getMessage = d.getMessage) (field : String) (params : List Value) (locale : Key) :
    d'.resolveMessage D' field params locale = d.resolveMessage D field params locale :=
  resolveMessage_congr_on (fun k _ => hcandidates k) hgeneral field params

/-- A definition that is not shared takes no message from the dictionary. -/
theorem candidate?_of_own {d : Definition} (h : d.shared = false) (D : Dictionary) (locale : Key) :
    d.candidate? D locale = (d.ownMessage? locale).map Message.call := by
  unfold candidate?
  cases d.ownMessage? locale with
  | none => simp [h]
  | some m => rfl

/-- The message of a definition that is not shared is the same with every dictionary. -/
theorem resolveMessage_of_own {d : Definition} (h : d.shared = false) (D D' : Dictionary)
    (field : String) (params : List Value) (locale : Key) :
    d.resolveMessage D' field params locale = d.resolveMessage D field params locale := by
  apply resolveMessage_congr
  · intro considered
    rw [candidate?_of_own h, candidate?_of_own h]
  · rfl

end Definition

end FieldRules
