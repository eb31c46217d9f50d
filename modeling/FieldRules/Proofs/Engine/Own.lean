import FieldRules.Proofs.Definition
import FieldRules.Proofs.Engine.Contained

/-!
# Validators of an engine's own

A name that an engine registered itself stands for the engine's own definition, whatever the catalog
has under it, and the messages of such a definition do not come from the dictionary. So where all rules
of a field are the engine's own (`OwnRules`), what the engines share makes no difference: not to what is
called (`validate_of_own`), and not to the entries when what was put off has come (`finish_of_own`).
-/

namespace FieldRules

/-- A name that is in the overlay stands for the definition there. -/
theorem Overlay.resolve_of_get? {o : Overlay} {name : String} {d : Definition}
    (h : Table.get? o.definitions name = some d) (c : Catalog) : o.resolve c name = some d := by
  rw [resolve, h]

/-- Calls depend on the names of the rules alone. -/
theorem dispatch_congr {resolve resolve' : Resolver} {rules : List Rule}
    (h : ∀ r ∈ rules, resolve' r.name = resolve r.name) (value : Value) (params : List Value) :
    dispatch resolve' value params rules = dispatch resolve value params rules := by
  have hcalls : rules.map (callRule resolve' value params) = rules.map (callRule resolve value params) := by
    apply List.map_congr_left
    intro r hr
    rw [callRule, callRule, h r hr]
  rw [dispatch, dispatch, hcalls]

/-- The rule of a call is the engine's own: it was known, and its messages are not in the dictionary. -/
def RuleCall.Own (c : RuleCall) : Prop := ∃ d, c.definition = some d ∧ d.shared = false

namespace Engine

/-- The rules of a field are all the engine's own. -/
def OwnRules (e : Engine) (field : String) : Prop :=
  ∀ r ∈ e.rulesFor field, ∃ d, Table.get? e.overlay.definitions r.name = some d ∧ d.shared = false

variable {e : Engine} {field : String}

/-! ## Calls -/

/-- The same is called with every catalog. -/
theorem OwnRules.dispatch (h : e.OwnRules field) (c c' : Catalog) (value : Value)
    (params : List Value) :
    FieldRules.dispatch (e.overlay.resolve c') value params (e.rulesFor field) =
      FieldRules.dispatch (e.overlay.resolve c) value params (e.rulesFor field) := by
  apply dispatch_congr
  intro r hr
  obtain ⟨d, hd, -⟩ := h r hr
  rw [Overlay.resolve_of_get? hd, Overlay.resolve_of_get? hd]

/-- The calls of such rules are the engine's own. -/
theorem OwnRules.calls (h : e.OwnRules field) {shared : Shared} {value extra : Value}
    {cs : List RuleCall} (hcs : e.asked shared field value extra = .calls cs) :
    ∀ c ∈ cs, c.Own := by
  have hrules := rules?_of_asked hcs
  unfold asked at hcs
  rw [hrules] at hcs
  split at hcs
  · simp at hcs
  · rename_i rules hsame
    split at hcs
    · simp at hcs
    · rename_i params _
      rw [Asked.calls.injEq] at hcs
      intro c hc
      rw [← hcs] at hc
      simp only [FieldRules.dispatch, List.map_map, List.mem_map, Function.comp_apply] at hc
      obtain ⟨r, hr, rfl⟩ := hc
      have hdeclared : r ∈ e.rulesFor field := by
        rw [rulesFor, hrules, hsame, Option.getD_some]
        exact hr
      obtain ⟨d, hd, hown⟩ := h r hdeclared
      exact ⟨d, by simp only [callRule, Overlay.resolve_of_get? hd], hown⟩

/-! ## Messages -/

theorem messageFor_of_own {c : RuleCall} (h : c.Own) (shared shared' : Shared) (display : String) :
    e.messageFor shared' display c = e.messageFor shared display c := by
  obtain ⟨d, hd, hown⟩ := h
  simp only [messageFor, hd]
  exact Definition.resolveMessage_of_own hown _ _ display c.params e.locale

/-- The entries of such calls are the same whatever engines share. -/
theorem record_of_own {calls : List RuleCall} (h : ∀ c ∈ calls, c.Own) (shared shared' : Shared)
    (passed : List Bool) :
    e.record shared' field calls passed = e.record shared field calls passed := by
  have hentries : e.failures shared' field calls passed = e.failures shared field calls passed := by
    unfold failures
    apply List.filterMap_congr
    rintro ⟨c, ok⟩ hc
    have hown : c.Own := h c (List.of_mem_zip hc).1
    simp only [messageFor_of_own hown shared shared']
  rw [record, record, hentries]

/-! ## Validations -/

/-- The validation of a field whose rules are all the engine's own is the same whatever engines share:
the same answer, the same calls noted, and the same engine after it. -/
theorem validate_of_own (h : e.OwnRules field) (shared shared' : Shared) (value extra : Value) :
    e.validate shared' field value extra = e.validate shared field value extra := by
  have hrenewed : (e.renew field).rules? field = e.rules? field := rfl
  simp only [validate, hrenewed]
  cases hrules : e.rules? field with
  | none => rfl
  | some rules =>
      simp only
      cases hparams : extraParams rules (if extra.truthy then extra else .list []) with
      | error f => rfl
      | ok params =>
          -- The overlay of the renewed engine is the one that was there, so the same is called.
          have hsame : dispatch ((e.renew field).overlay.resolve shared'.catalog) value params rules =
              dispatch ((e.renew field).overlay.resolve shared.catalog) value params rules := by
            have hrulesFor : e.rulesFor field = rules := by rw [rulesFor, hrules, Option.getD_some]
            rw [← hrulesFor]
            exact h.dispatch shared.catalog shared'.catalog value params
          have hasked : e.asked shared field value extra =
              .calls (dispatch ((e.renew field).overlay.resolve shared.catalog) value params
                rules).result := by
            simp only [asked, hrules, hparams]
            rfl
          simp only [hsame]
          split
          · rfl
          · rw [record_of_own (h.calls hasked) shared shared']

/-- A pending validation whose calls are all the engine's own ends the same whatever engines share by
then. -/
theorem finish_of_own {p : PendingField} (h : ∀ c ∈ p.calls, c.Own) (shared shared' : Shared)
    (passed : List Bool) : e.finish shared' p passed = e.finish shared p passed := by
  unfold finish
  rw [record_of_own h shared shared']

/-- The calls of a pending validation are the engine's own if all rules of its field are. -/
theorem calls_of_pending (h : e.OwnRules field) {shared : Shared} {value extra : Value}
    {p : PendingField}
    (hp : (e.validate shared field value extra).2.result = .ok (.pending p)) :
    ∀ c ∈ p.calls, c.Own := by
  cases hasked : e.asked shared field value extra with
  | undeclared => simp [validate_undeclared hasked] at hp
  | refused f => simp [validate_refused hasked] at hp
  | calls cs =>
      cases hpending : cs.any RuleCall.isPending with
      | false => simp [(validate_known hasked hpending).2] at hp
      | true =>
          rw [(validate_pending hasked hpending).2] at hp
          simp only [Except.ok.injEq, Verdict.pending.injEq] at hp
          rw [← hp]
          exact h.calls hasked

theorem judge_of_own (h : e.OwnRules field) (shared shared' : Shared) (value extra : Value)
    (delivered : Nat → Except Fault Value) :
    e.judge shared' field value extra delivered = e.judge shared field value extra delivered := by
  have hcalled := validate_of_own h shared shared' value extra
  cases hresult : (e.validate shared field value extra).2.result with
  | error f => simp only [judge, hcalled, hresult]
  | ok verdict =>
      cases verdict with
      | known passed => simp only [judge, hcalled, hresult]
      | pending p =>
          have hends := finish_of_own (e := (e.validate shared field value extra).1)
            (calls_of_pending h hresult) shared shared' (resultsOf delivered p.calls)
          simp only [judge, hcalled, hresult, hends]

/-- Whatever gates are open, a pending validation of such a field goes on the same. -/
theorem advance_of_own {p : PendingField} (h : ∀ c ∈ p.calls, c.Own) (probe : Probe) (gates : Gates)
    (e : Engine) (shared shared' : Shared) :
    ((Job.ofField p).start probe).result.advance gates shared' e =
      ((Job.ofField p).start probe).result.advance gates shared e := by
  have hends : ∀ passed, e.finish shared' p passed = e.finish shared p passed :=
    finish_of_own h shared shared'
  simp only [Job.ofField, Job.start, Job.startPart, Job.advance, Job.endParts, Job.endPart,
    List.map_cons, List.map_nil, hends]

/-- What engines share makes no difference to the validations of a field, in whatever locale. -/
structure Shielded (e : Engine) (field : String) : Prop where
  /-- The call answers the same and leaves the same engine, with the same bag. -/
  called : ∀ locale value extra shared shared',
    (e.setLocale locale).validate shared' field value extra =
      (e.setLocale locale).validate shared field value extra
  /-- What it left pending goes on and ends the same, whatever has become of the engine and of what
  engines share. -/
  ended : ∀ locale value extra shared p,
    ((e.setLocale locale).validate shared field value extra).2.result = .ok (.pending p) →
      ∀ probe gates (last : Engine) later later',
        ((Job.ofField p).start probe).result.advance gates later' last =
          ((Job.ofField p).start probe).result.advance gates later last
  /-- From its call to its end, with whatever is delivered, it comes to the same result and the same
  bag. -/
  judged : ∀ locale value extra delivered shared shared',
    (e.setLocale locale).judge shared' field value extra delivered =
      (e.setLocale locale).judge shared field value extra delivered

theorem OwnRules.shielded (h : e.OwnRules field) : e.Shielded field := by
  have hlocale : ∀ locale, (e.setLocale locale).OwnRules field := fun _ => h
  constructor
  · intro locale value extra shared shared'
    exact validate_of_own (hlocale locale) shared shared' value extra
  · intro locale value extra shared p hp probe gates last later later'
    exact advance_of_own (calls_of_pending (hlocale locale) hp) probe gates last later later'
  · intro locale value extra delivered shared shared'
    exact judge_of_own (hlocale locale) shared shared' value extra delivered

end Engine

end FieldRules
