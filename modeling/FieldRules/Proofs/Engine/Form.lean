import FieldRules.Proofs.Engine.Steps

/-!
# What a validation of all fields is to find

The failures that values have by the rules of an engine do not depend on its bag, its generations or
what is pending: `formEntries` spells them out, given the answers that will be delivered for the
calls that are put off. They depend on the calls only through what each says (`judgements`).
-/

namespace FieldRules

namespace Engine

/-- The calls of a field's rules on a value. -/
def callsOf (e : Engine) (shared : Shared) (field : String) (value : Value) : List RuleCall :=
  (dispatch (e.overlay.resolve shared.catalog) value [] (e.rulesFor field)).result

/-- The results of a field's rules, with the answers that are delivered for the calls that were put
off. -/
def resultsFor (e : Engine) (shared : Shared) (values : String → Value)
    (delivered : String → Nat → Except Fault Value) (field : String) : List Bool :=
  resultsOf (delivered field) (e.callsOf shared field (values field))

/-- What the rules of a field say, one after the other: the name of the rule, its message, and
whether the value passed. -/
def judgements (e : Engine) (shared : Shared) (values : String → Value)
    (delivered : String → Nat → Except Fault Value) (field : String) :
    List (String × String × Bool) :=
  ((e.callsOf shared field (values field)).zip (e.resultsFor shared values delivered field)).map
    fun x => (x.1.rule.name, e.messages shared field x.1, x.2)

/-- The failures of all fields: field after field in the order of their declaration, and of each
field an entry for each rule that failed, in the order of the rules. -/
def formEntries (e : Engine) (shared : Shared) (values : String → Value)
    (delivered : String → Nat → Except Fault Value) : List Entry :=
  e.fieldNames.flatMap fun f => entriesFor f (e.messages shared f)
    (e.callsOf shared f (values f)) (e.resultsFor shared values delivered f)

/-! ## Failures -/

/-- No failure is found exactly if every rule of every field passed. -/
theorem formEntries_eq_nil_iff {e : Engine} {shared : Shared} {values : String → Value}
    {delivered : String → Nat → Except Fault Value} :
    e.formEntries shared values delivered = [] ↔
      (e.fieldNames.all fun f => (e.resultsFor shared values delivered f).all id) = true := by
  unfold formEntries
  rw [List.flatMap_eq_nil_iff, List.all_eq_true]
  constructor
  · intro h f hf
    exact (entriesFor_eq_nil_iff (length_resultsOf _ _)).mp (h f hf)
  · intro h f hf
    exact (entriesFor_eq_nil_iff (length_resultsOf _ _)).mpr (h f hf)

theorem entriesFor_eq_of_judgements (e : Engine) (shared : Shared) (values : String → Value)
    (delivered : String → Nat → Except Fault Value) (f : String) :
    entriesFor f (e.messages shared f) (e.callsOf shared f (values f))
        (e.resultsFor shared values delivered f) =
      ((e.judgements shared values delivered f).filter fun x => !x.2.2).map fun x =>
        { field := f, message := x.2.1, rule := some x.1 } := by
  unfold entriesFor judgements
  rw [List.filter_map, List.map_map]
  rfl

/-- Engines whose fields are the same and whose rules say the same find the same failures. -/
theorem formEntries_congr {e e' : Engine} {shared shared' : Shared} {values values' : String → Value}
    {delivered delivered' : String → Nat → Except Fault Value}
    (hnames : e'.fieldNames = e.fieldNames)
    (h : ∀ f ∈ e.fieldNames, e'.judgements shared' values' delivered' f =
      e.judgements shared values delivered f) :
    e'.formEntries shared' values' delivered' = e.formEntries shared values delivered := by
  unfold formEntries
  rw [hnames]
  apply List.flatMap_congr
  intro f hf
  rw [entriesFor_eq_of_judgements, entriesFor_eq_of_judgements, h f hf]

/-! ## Verdicts -/

/-- The validation of a declared field calls its rules. -/
theorem asked_of_declared {e : Engine} {field : String} (shared : Shared) (value : Value)
    (h : field ∈ e.fieldNames) :
    e.asked shared field value (.list []) = .calls (e.callsOf shared field value) := by
  obtain ⟨rules, hrules⟩ := Option.isSome_iff_exists.mp (Table.get?_isSome_iff.mpr h)
  have hdeclared : e.rules? field = some rules := hrules
  rw [asked_without_extra, hdeclared, callsOf, rulesFor, hdeclared, Option.getD_some]

theorem length_result_validateEach (e : Engine) (shared : Shared) (values : String → Value)
    (names : List String) :
    (validateEach shared values e names).2.result.length = names.length := by
  induction names generalizing e with
  | nil => rfl
  | cons n ns ih =>
      rw [(validateEach_cons shared values e n ns).2, List.length_cons, ih, List.length_cons]

/-- The verdict on a field is that of its validation, which the validation of other fields does not
change. -/
theorem result_validateEach (e : Engine) (shared : Shared) (values : String → Value)
    (names : List String) {k : Nat} {f : String} (hk : names[k]? = some f) :
    ∃ e', SameSetup e e' ∧ (validateEach shared values e names).2.result[k]? =
      some (verdictOf (e'.validate shared f (values f)).2.result) := by
  induction names generalizing e k with
  | nil => simp at hk
  | cons n ns ih =>
      rw [(validateEach_cons shared values e n ns).2]
      cases k with
      | zero =>
          obtain rfl : n = f := by simpa using hk
          exact ⟨e, SameSetup.refl e, rfl⟩
      | succ k =>
          obtain ⟨e', hsetup, hresult⟩ := ih (e.validate shared n (values n)).1 hk
          exact ⟨e', (sameSetup_validate e shared n (values n) _).trans hsetup, hresult⟩

/-- The verdict on a declared field is pending, with the calls of its rules, if a call was put off; else
it tells whether every rule passed. -/
theorem verdict_of_declared (e : Engine) (shared : Shared) (values : String → Value) {k : Nat}
    {f : String} (hk : e.fieldNames[k]? = some f) :
    ((e.callsOf shared f (values f)).any RuleCall.isPending = true ∧
      ∃ p, p.calls = e.callsOf shared f (values f) ∧
        (validateEach shared values e e.fieldNames).2.result[k]? = some (.pending p)) ∨
    ((e.callsOf shared f (values f)).any RuleCall.isPending = false ∧
      (validateEach shared values e e.fieldNames).2.result[k]? =
        some (.known ((settledResults (e.callsOf shared f (values f))).all id))) := by
  obtain ⟨e', hsetup, hverdict⟩ := result_validateEach e shared values e.fieldNames hk
  have hasked := asked_of_declared shared (values f) (List.mem_of_getElem? hk)
  rw [← hsetup.asked] at hasked
  rw [hverdict]
  cases hcalls : (e.callsOf shared f (values f)).any RuleCall.isPending with
  | true =>
      rw [(validate_pending hasked hcalls).2]
      exact Or.inl ⟨rfl, _, rfl, rfl⟩
  | false =>
      rw [(validate_known hasked hcalls).2]
      exact Or.inr ⟨rfl, rfl⟩

/-- No verdict is pending if no call was put off. -/
theorem any_isPending_of_settled {e : Engine} {shared : Shared} {values : String → Value}
    (h : ∀ f ∈ e.fieldNames, (e.callsOf shared f (values f)).any RuleCall.isPending = false) :
    (validateEach shared values e e.fieldNames).2.result.any isPending = false := by
  rw [List.any_eq_false]
  intro v hv
  obtain ⟨k, hk⟩ := List.mem_iff_getElem?.mp hv
  have hlt : k < e.fieldNames.length := by
    rw [← length_result_validateEach e shared values e.fieldNames]
    exact (List.getElem?_eq_some_iff.mp hk).1
  have hf : e.fieldNames[k]? = some e.fieldNames[k] := List.getElem?_eq_getElem hlt
  rcases verdict_of_declared e shared values hf with ⟨hpending, -⟩ | ⟨-, hknown⟩
  · rw [h _ (List.mem_of_getElem? hf)] at hpending
    simp at hpending
  · rw [hk, Option.some.injEq] at hknown
    simp [hknown, isPending]

/-- If no verdict is pending, no call was put off, and each verdict tells whether every rule of its
field passed. -/
theorem verdicts_of_known {e : Engine} {shared : Shared} {values : String → Value}
    (h : (validateEach shared values e e.fieldNames).2.result.any isPending = false)
    (delivered : String → Nat → Except Fault Value) :
    (∀ f ∈ e.fieldNames, (e.callsOf shared f (values f)).any RuleCall.isPending = false) ∧
      (validateEach shared values e e.fieldNames).2.result =
        e.fieldNames.map fun f => .known ((e.resultsFor shared values delivered f).all id) := by
  have hfield : ∀ (k : Nat) (f : String), e.fieldNames[k]? = some f →
      (e.callsOf shared f (values f)).any RuleCall.isPending = false ∧
        (validateEach shared values e e.fieldNames).2.result[k]? =
          some (Verdict.known ((settledResults (e.callsOf shared f (values f))).all id)) := by
    intro k f hk
    rcases verdict_of_declared e shared values hk with ⟨-, p, -, hpending⟩ | hknown
    · rw [List.any_eq_false] at h
      have := h _ (List.mem_of_getElem? hpending)
      simp [isPending] at this
    · exact hknown
  constructor
  · intro f hf
    obtain ⟨k, hk⟩ := List.mem_iff_getElem?.mp hf
    exact (hfield k f hk).1
  · apply List.ext_getElem?
    intro k
    rw [List.getElem?_map]
    cases hk : e.fieldNames[k]? with
    | none =>
        rw [Option.map_none, List.getElem?_eq_none_iff, length_result_validateEach]
        exact List.getElem?_eq_none_iff.mp hk
    | some f =>
        obtain ⟨hcalls, hverdict⟩ := hfield k f hk
        rw [hverdict, Option.map_some, resultsFor, resultsOf_of_settled hcalls]

end Engine

end FieldRules
