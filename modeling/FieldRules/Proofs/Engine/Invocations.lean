import FieldRules.Proofs.Engine.Contained
import FieldRules.Proofs.Rule.RoundTrip

/-!
# Every rule is called

The validation of a field invokes the validator of each of its rules whose name is known: once for each
time the rule stands there, in order, with the value and with the parameters as they are written and
those of the caller after them. What the validators answer makes no difference to that, be it a failure,
a fault or an answer that is put off; and it all happens before the validation answers. A rule whose name
is not known is left out and has failed (`every_rule_invoked`).

Validators leave notes in the record of calls, each what it will. So that every validator was invoked
once and in order is said by the record: it is what the invocations leave, one after the other.
-/

namespace FieldRules

/-! ## Invocations -/

/-- A validator, with a value and with parameters that it is called with. -/
structure Invocation where
  definition : Definition
  value : Value
  params : List Value

namespace Invocation

/-- What the validator answers. -/
def reply (i : Invocation) : Noted Answer := i.definition.validate i.value i.params

/-- What invocations leave in the record of calls, one after the other. -/
def record (is : List Invocation) : List CallNote := is.flatMap fun i => i.reply.notes

theorem record_append (is is' : List Invocation) : record (is ++ is') = record is ++ record is' :=
  List.flatMap_append

end Invocation

/-- What is invoked for rules: for each rule whose name is known its validator, with the value, and with
the parameters as they are written and those of the caller after them. -/
def invocations (resolve : Resolver) (value : Value) (extra : List Value) (rules : List Rule) :
    List Invocation :=
  rules.filterMap fun r => (resolve r.name).map fun definition =>
    { definition, value, params := r.params.map .text ++ extra }

/-- What is known of a call of a rule once its validator was invoked. -/
structure RuleCall.Made (resolve : Resolver) (value : Value) (extra : List Value) (c : RuleCall) :
    Prop where
  definition : c.definition = resolve c.rule.name
  params : c.params = c.rule.params.map .text ++ extra
  answered : ∀ d, resolve c.rule.name = some d →
    c.outcome = (d.validate value c.params).result.outcome
  unknown : resolve c.rule.name = none → c.outcome = .settled false

variable {resolve : Resolver} {value : Value} {extra : List Value} {rules : List Rule}

/-! ## Calling rules -/

theorem made_callRule (resolve : Resolver) (value : Value) (extra : List Value) (r : Rule) :
    (callRule resolve value extra r).result.Made resolve value extra := by
  unfold callRule
  cases hr : resolve r.name with
  | none =>
      exact ⟨hr.symm, rfl, fun d hd => by simp [hr] at hd, fun _ => rfl⟩
  | some d =>
      refine ⟨hr.symm, rfl, ?_, fun hnone => by simp [hr] at hnone⟩
      intro d' hd'
      obtain rfl : d = d' := Option.some.inj (hr.symm.trans hd')
      exact result_invoke d value _

theorem notes_callRule (resolve : Resolver) (value : Value) (extra : List Value) (r : Rule) :
    (callRule resolve value extra r).notes =
      Invocation.record (invocations resolve value extra [r]) := by
  unfold callRule invocations
  cases hr : resolve r.name with
  | none => simp [hr, Invocation.record]
  | some d => simp [hr, Invocation.record, Invocation.reply, invoke, callParams]

theorem invocations_cons (resolve : Resolver) (value : Value) (extra : List Value) (r : Rule)
    (rules : List Rule) :
    invocations resolve value extra (r :: rules) =
      invocations resolve value extra [r] ++ invocations resolve value extra rules := by
  unfold invocations
  cases hr : resolve r.name <;> simp [hr]

/-- Calling rules leaves what their invocations leave. -/
theorem notes_dispatch (resolve : Resolver) (value : Value) (extra : List Value) (rules : List Rule) :
    (dispatch resolve value extra rules).notes =
      Invocation.record (invocations resolve value extra rules) := by
  induction rules with
  | nil => rfl
  | cons r rules ih =>
      have hcons : (dispatch resolve value extra (r :: rules)).notes =
          (callRule resolve value extra r).notes ++ (dispatch resolve value extra rules).notes := rfl
      rw [hcons, ih, notes_callRule, invocations_cons resolve value extra r rules,
        Invocation.record_append]

theorem made_of_mem_dispatch {c : RuleCall} (hc : c ∈ (dispatch resolve value extra rules).result) :
    c.Made resolve value extra := by
  obtain ⟨call, hcall, rfl⟩ := List.mem_map.mp hc
  obtain ⟨r, -, rfl⟩ := List.mem_map.mp hcall
  exact made_callRule resolve value extra r

/-- Validators that record themselves by the names of their rules leave one line for each rule whose name
is known. -/
theorem record_of_spies
    (hspies : ∀ r ∈ rules, ∀ d, resolve r.name = some d → ∀ params,
      (d.validate value params).notes =
        [.validator r.name value.asText (params.map Value.asText)]) :
    Invocation.record (invocations resolve value extra rules) =
      (rules.filter fun r => (resolve r.name).isSome).map fun r =>
        .validator r.name value.asText (r.params ++ extra.map Value.asText) := by
  induction rules with
  | nil => rfl
  | cons r rules ih =>
      obtain ⟨hr, hrest⟩ := List.forall_mem_cons.mp hspies
      rw [invocations_cons, Invocation.record_append, ih hrest]
      cases hd : resolve r.name with
      | none => simp [invocations, hd, Invocation.record]
      | some d =>
          have hnote := hr d hd (r.params.map .text ++ extra)
          have htexts : (r.params.map Value.text).map Value.asText = r.params := by
            simp [Function.comp_def, Value.asText]
          rw [List.map_append, htexts] at hnote
          simp [invocations, hd, Invocation.record, Invocation.reply, hnote]

/-! ## Rules that are not known -/

/-- Among calls that were made, a rule whose name is not known has failed, whatever is delivered. -/
theorem mem_zip_resultsOf_of_unknown {cs : List RuleCall} {r : Rule}
    (hmade : ∀ c ∈ cs, c.Made resolve value extra) (hr : r ∈ cs.map (·.rule))
    (hunknown : resolve r.name = none) (delivered : Nat → Except Fault Value) :
    ∃ c, c.rule = r ∧ c.definition = none ∧ (c, false) ∈ cs.zip (resultsOf delivered cs) := by
  obtain ⟨c, hc, rfl⟩ := List.mem_map.mp hr
  have hcall := hmade c hc
  refine ⟨c, rfl, hcall.definition.trans hunknown, ?_⟩
  obtain ⟨i, hi⟩ := List.mem_iff_getElem?.mp hc
  have hfailed : (resultsOf delivered cs)[i]? = some false := by
    rw [resultsOf, List.getElem?_mapIdx, hi, Option.map_some, RuleCall.passedAs, hcall.unknown hunknown]
  exact List.mem_of_getElem? (List.getElem?_zip_eq_some.mpr ⟨hi, hfailed⟩)

/-- The parameters that a caller gives: the members of a value, or none. -/
def GivenParams (extra : Value) (params : List Value) : Prop :=
  (if extra.truthy then extra else .list []).members? = some params

theorem givenParams_list (params : List Value) : GivenParams (.list params) params := by
  cases params <;> rfl

namespace Engine

variable {e : Engine} {shared : Shared} {field : String} {params : List Value}

/-- The field has canonical rules, from the line that they are written as. -/
structure Declares (e : Engine) (field : String) (rules : List Rule) : Prop where
  canonical : ∀ r ∈ rules, r.Canonical
  read : e.rules? field = some (Rule.readAll (Rule.writeAll rules))

theorem Declares.rules? (h : e.Declares field rules) : e.rules? field = some rules := by
  rw [h.read, Rule.readAll_writeAll h.canonical]

theorem declares_attach (e : Engine) (field : String) (hcanonical : ∀ r ∈ rules, r.Canonical) :
    (e.attach field (Rule.readAll (Rule.writeAll rules))).Declares field rules :=
  ⟨hcanonical, Table.get?_put_self _ _ _⟩

theorem SameSetup.declares {e' : Engine} (h : SameSetup e e') (hrules : e.Declares field rules) :
    e'.Declares field rules := by
  refine ⟨hrules.canonical, ?_⟩
  rw [Engine.rules?, h.fields]
  exact hrules.read

/-- A field with rules calls them with the parameters of the caller, and leaves what that leaves. -/
theorem Declares.dispatched (h : e.Declares field rules) {extra : Value}
    (hextra : GivenParams extra params) (shared : Shared) (value : Value) :
    e.asked shared field value extra =
        .calls (dispatch (e.overlay.resolve shared.catalog) value params rules).result ∧
      (e.validate shared field value extra).2.notes =
        Invocation.record (invocations (e.overlay.resolve shared.catalog) value params rules) := by
  have hparams : ∃ used,
      extraParams rules (if extra.truthy then extra else .list []) = .ok used ∧
        ∀ resolve, dispatch resolve value used rules = dispatch resolve value params rules := by
    unfold extraParams
    cases rules with
    | nil => exact ⟨[], rfl, fun _ => rfl⟩
    | cons r rules =>
        refine ⟨params, ?_, fun _ => rfl⟩
        rw [hextra]
        rfl
  obtain ⟨used, hused, hsame⟩ := hparams
  have hrenewed : (e.renew field).rules? field = some rules := h.rules?
  constructor
  · simp only [asked, h.rules?, hused, hsame]
  · rw [← notes_dispatch]
    simp only [validate, hrenewed, hused]
    split
    · exact congrArg Noted.notes (hsame _)
    · exact congrArg Noted.notes (hsame _)

/-- What the validation of fields leaves in the record is what the validations of each leave. -/
theorem notes_validateEach {rulesOf : String → List Rule} {values : String → Value} (names : List String)
    (hrules : ∀ f ∈ names, e.Declares f (rulesOf f)) :
    (validateEach shared values e names).2.notes =
      names.flatMap fun f => Invocation.record
        (invocations (e.overlay.resolve shared.catalog) (values f) [] (rulesOf f)) := by
  induction names generalizing e with
  | nil => rfl
  | cons n names ih =>
      obtain ⟨hn, hrest⟩ := List.forall_mem_cons.mp hrules
      have hsetup := sameSetup_validate e shared n (values n) (.list [])
      have hcons : (validateEach shared values e (n :: names)).2.notes =
          (e.validate shared n (values n)).2.notes ++
            (validateEach shared values (e.validate shared n (values n)).1 names).2.notes := rfl
      have hoverlay : (e.validate shared n (values n)).1.overlay = e.overlay := by rw [hsetup]
      rw [hcons, List.flatMap_cons, (hn.dispatched (givenParams_list []) shared (values n)).2,
        ih fun f hf => hsetup.declares (hrest f hf), hoverlay]

theorem notes_validateAll (e : Engine) (shared : Shared) (values : String → Value) :
    (e.validateAll shared values).2.notes = (validateEach shared values e e.fieldNames).2.notes := by
  simp only [validateAll]
  split <;> rfl

/-- The entry for a rule whose name is not known. -/
def unknownEntry (e : Engine) (field : String) (r : Rule) : Entry :=
  { field, message := unknownRuleMessage (e.displayName field) r.name, rule := some r.name }

theorem unknownEntry_mem {cs : List RuleCall} {value : Value} {r : Rule}
    (hmade : ∀ c ∈ cs, c.Made (e.overlay.resolve shared.catalog) value params)
    (hr : r ∈ cs.map (·.rule)) (hunknown : e.overlay.resolve shared.catalog r.name = none)
    (delivered : Nat → Except Fault Value) :
    e.unknownEntry field r ∈ entriesFor field (e.messages shared field) cs (resultsOf delivered cs) := by
  obtain ⟨c, rfl, hnone, hc⟩ := mem_zip_resultsOf_of_unknown hmade hr hunknown delivered
  refine List.mem_map.mpr ⟨(c, false), List.mem_filter.mpr ⟨hc, rfl⟩, ?_⟩
  simp only [unknownEntry, messages, messageFor, hnone]

/-- Of the rules of a field one has failed if its name is not known. -/
theorem all_resultsOf_of_unknown {cs : List RuleCall} {value : Value} {r : Rule}
    (hmade : ∀ c ∈ cs, c.Made (e.overlay.resolve shared.catalog) value params)
    (hr : r ∈ cs.map (·.rule)) (hunknown : e.overlay.resolve shared.catalog r.name = none)
    (delivered : Nat → Except Fault Value) : (resultsOf delivered cs).all id = false := by
  obtain ⟨c, -, -, hc⟩ := mem_zip_resultsOf_of_unknown hmade hr hunknown delivered
  rw [List.all_eq_false]
  exact ⟨false, (List.of_mem_zip hc).2, by simp⟩

/-! ## Validations -/

/-- What the validation of a field with rules does. -/
structure FieldInvoked (e : Engine) (shared : Shared) (field : String) (rules : List Rule)
    (value extra : Value) (params : List Value) : Prop where
  /-- A name stands for the engine's own validator, or else for that of the catalog. -/
  resolved : ∀ name, e.overlay.resolve shared.catalog name =
    (Table.get? e.overlay.definitions name).or (shared.catalog.get? name)
  /-- Every rule whose name is known is invoked each time it stands there, in order, and this is over when
  the validation answers. -/
  invoked : (e.validate shared field value extra).2.notes =
    Invocation.record (invocations (e.overlay.resolve shared.catalog) value params rules)
  /-- Validators that record themselves by the names of their rules leave one line for each. -/
  spied : (∀ r ∈ rules, ∀ d, e.overlay.resolve shared.catalog r.name = some d → ∀ ps,
      (d.validate value ps).notes = [.validator r.name value.asText (ps.map Value.asText)]) →
    (e.validate shared field value extra).2.notes =
      (rules.filter fun r => (e.overlay.resolve shared.catalog r.name).isSome).map fun r =>
        .validator r.name value.asText (r.params ++ params.map Value.asText)
  /-- There is a call for each rule. The validation waits for all that was put off, if anything was, and
  in the end an entry is left for each call that failed. -/
  called : ∃ cs, cs.map (·.rule) = rules ∧
    (∀ c ∈ cs, c.Made (e.overlay.resolve shared.catalog) value params) ∧
    (e.validate shared field value extra).2.result =
      (if cs.any RuleCall.isPending then
        .ok (.pending { field, generation := e.generation field + 1, calls := cs })
      else .ok (.known ((settledResults cs).all id))) ∧
    ∀ delivered,
      (e.judge shared field value extra delivered).2 = .ok ((resultsOf delivered cs).all id) ∧
      (e.judge shared field value extra delivered).1.bag.entriesOf field =
        entriesFor field (e.messages shared field) cs (resultsOf delivered cs)
  /-- A rule whose name is not known has failed. -/
  unknown : ∀ r ∈ rules, e.overlay.resolve shared.catalog r.name = none → ∀ delivered,
    (e.judge shared field value extra delivered).2 = .ok false ∧
      e.unknownEntry field r ∈ (e.judge shared field value extra delivered).1.bag.entriesOf field

theorem Declares.fieldInvoked (h : e.Declares field rules) {extra : Value}
    (hextra : GivenParams extra params) (value : Value) :
    FieldInvoked e shared field rules value extra params := by
  obtain ⟨hasked, hnotes⟩ := h.dispatched hextra shared value
  obtain ⟨cs, hcs⟩ : ∃ cs,
      (dispatch (e.overlay.resolve shared.catalog) value params rules).result = cs := ⟨_, rfl⟩
  rw [hcs] at hasked
  have hmap : cs.map (·.rule) = rules := by rw [← hcs, dispatch_rules]
  have hmade : ∀ c ∈ cs, c.Made (e.overlay.resolve shared.catalog) value params := by
    rw [← hcs]
    exact fun c hc => made_of_mem_dispatch hc
  have hentries : ∀ delivered, (e.judge shared field value extra delivered).1.bag.entriesOf field =
      entriesFor field (e.messages shared field) cs (resultsOf delivered cs) := by
    intro delivered
    rw [judge_of_calls hasked, Bag.entriesOf_foldl_add_self _ field_of_mem_entriesFor,
      Bag.entriesOf_remove_self, List.nil_append]
  constructor
  case resolved =>
    intro name
    unfold Overlay.resolve
    cases Table.get? e.overlay.definitions name <;> rfl
  case invoked => exact hnotes
  case spied =>
    intro hspies
    rw [hnotes, record_of_spies hspies]
  case called =>
    refine ⟨cs, hmap, hmade, ?_, ?_⟩
    · cases hpending : cs.any RuleCall.isPending with
      | true => exact (validate_pending hasked hpending).2
      | false => exact (validate_known hasked hpending).2
    · intro delivered
      exact ⟨congrArg Prod.snd (judge_of_calls hasked delivered), hentries delivered⟩
  case unknown =>
    intro r hr hunknown delivered
    rw [← hmap] at hr
    constructor
    · rw [judge_of_calls hasked, all_resultsOf_of_unknown hmade hr hunknown]
    · rw [hentries]
      exact unknownEntry_mem hmade hr hunknown delivered

/-- What the validation of all fields does. -/
structure FormInvoked (e : Engine) (shared : Shared) (values : String → Value)
    (rulesOf : String → List Rule) : Prop where
  /-- Field after field, in the order of their declaration, every rule whose name is known is invoked each
  time it stands there, without further parameters. -/
  invoked : (e.validateAll shared values).2.notes = e.fieldNames.flatMap fun f => Invocation.record
    (invocations (e.overlay.resolve shared.catalog) (values f) [] (rulesOf f))
  /-- There is a call for each rule. -/
  called : ∀ f ∈ e.fieldNames, (e.callsOf shared f (values f)).map (·.rule) = rulesOf f ∧
    ∀ c ∈ e.callsOf shared f (values f), c.Made (e.overlay.resolve shared.catalog) (values f) []
  /-- The validation is known once all calls are, and tells whether all passed. -/
  known : ∀ passed, (e.validateAll shared values).2.result = .known passed →
    passed = e.fieldNames.all fun f => (settledResults (e.callsOf shared f (values f))).all id
  /-- Else each field is known or waits for its calls. -/
  pending : ∀ verdicts, (e.validateAll shared values).2.result = .pending verdicts →
    ∀ (k : Nat) f, e.fieldNames[k]? = some f →
      verdicts[k]? = some (.known ((settledResults (e.callsOf shared f (values f))).all id)) ∨
        ∃ p, p.calls = e.callsOf shared f (values f) ∧ verdicts[k]? = some (.pending p)
  /-- A rule whose name is not known has failed. -/
  unknown : ∀ f ∈ e.fieldNames, ∀ r ∈ rulesOf f, e.overlay.resolve shared.catalog r.name = none →
    (e.validateAll shared values).2.result ≠ .known true ∧
      ∀ delivered, e.unknownEntry f r ∈ e.formEntries shared values delivered

theorem formInvoked {values : String → Value} {rulesOf : String → List Rule}
    (hrules : ∀ f ∈ e.fieldNames, e.Declares f (rulesOf f)) :
    FormInvoked e shared values rulesOf := by
  have hcalled : ∀ f ∈ e.fieldNames, (e.callsOf shared f (values f)).map (·.rule) = rulesOf f ∧
      ∀ c ∈ e.callsOf shared f (values f), c.Made (e.overlay.resolve shared.catalog) (values f) [] := by
    intro f hf
    have hrulesFor : e.rulesFor f = rulesOf f := by rw [rulesFor, (hrules f hf).rules?, Option.getD_some]
    rw [callsOf, hrulesFor]
    exact ⟨dispatch_rules _ _ _ _, fun c hc => made_of_mem_dispatch hc⟩
  have hknown : ∀ passed, (e.validateAll shared values).2.result = .known passed →
      passed = e.fieldNames.all fun f => (settledResults (e.callsOf shared f (values f))).all id := by
    intro passed hpassed
    obtain ⟨hany, -, hall⟩ := validateAll_of_known hpassed
    -- Nothing was put off, so it does not matter what would be delivered.
    obtain ⟨hsettled, hverdicts⟩ := verdicts_of_known hany fun _ _ => .ok .null
    have hsame : ∀ f ∈ e.fieldNames, e.resultsFor shared values (fun _ _ => .ok .null) f =
        settledResults (e.callsOf shared f (values f)) := by
      intro f hf
      exact resultsOf_of_settled (hsettled f hf) _
    rw [← hall, hverdicts, List.all_map, Bool.eq_iff_iff, List.all_eq_true, List.all_eq_true]
    apply forall₂_congr
    intro f hf
    rw [Function.comp_apply, Verdict.passed, hsame f hf]
  constructor
  case invoked =>
    rw [notes_validateAll]
    exact notes_validateEach e.fieldNames hrules
  case called => exact hcalled
  case known => exact hknown
  case pending =>
    intro verdicts hverdicts k f hk
    rw [← (validateAll_of_pending hverdicts).2]
    rcases verdict_of_declared e shared values hk with ⟨-, p, hp, hverdict⟩ | ⟨-, hverdict⟩
    · exact Or.inr ⟨p, hp, hverdict⟩
    · exact Or.inl hverdict
  case unknown =>
    intro f hf r hr hunknown
    obtain ⟨hmap, hmade⟩ := hcalled f hf
    rw [← hmap] at hr
    constructor
    · intro htrue
      obtain ⟨hany, -, -⟩ := validateAll_of_known htrue
      have hsettled := (verdicts_of_known hany fun _ _ => .ok .null).1 f hf
      have hpassed := List.all_eq_true.mp (hknown true htrue).symm f hf
      have hfailed := all_resultsOf_of_unknown hmade hr hunknown fun _ => .ok .null
      rw [resultsOf_of_settled hsettled, hpassed] at hfailed
      simp at hfailed
    · intro delivered
      exact List.mem_flatMap.mpr ⟨f, hf, unknownEntry_mem hmade hr hunknown (delivered f)⟩

/-- The validation of a field invokes every rule once and in order, whatever comes of it, and the
validation of all fields does so for each of them. -/
theorem every_rule_invoked {e : Engine} {field : String} {rules : List Rule}
    (hrules : e.Declares field rules) {extra : Value} {params : List Value}
    (hextra : GivenParams extra params) (shared : Shared) (value : Value) :
    FieldInvoked e shared field rules value extra params ∧
      ∀ values rulesOf, (∀ f ∈ e.fieldNames, e.Declares f (rulesOf f)) →
        FormInvoked e shared values rulesOf := by
  constructor
  · exact hrules.fieldInvoked hextra value
  · intro values rulesOf hform
    exact formInvoked hform

/-- A validator that records itself under a label and answers. -/
def spy (label : String) (answer : Answer) : Definition where
  name := label
  validate := fun value params =>
    ⟨answer, [.validator label value.asText (params.map Value.asText)]⟩

/-- Validators that everybody has: one that says false, and one that is hidden by another. -/
def spyShared : Shared where
  catalog := ⟨[("no", spy "no" (.now (.bool false))), ("boom", spy "hidden" (.now (.bool true)))]⟩
  dictionary := Dictionary.bundled

/-- An engine with a validator of its own that gives up and one whose answer is put off. -/
def spyEngine : Engine where
  overlay := ⟨[("boom", spy "boom" (.fault .wrongKind)), ("later", spy "later" (.later (.gate "g")))]⟩

/-- Rules of which one is not known and one stands there twice. -/
def spyRules : List Rule := Rule.readAll "no:a, b|boom|lost:c|later|no"

/-- All of them are invoked but the one that is not known, with the parameter of the caller at the end,
and the validation waits for the one that is put off. -/
theorem every_rule_invoked_spies :
    let e := spyEngine.attach "x" (Rule.readAll (Rule.writeAll spyRules))
    e.Declares "x" spyRules ∧ GivenParams (.list [.int 150]) [.int 150] ∧
      FieldInvoked e spyShared "x" spyRules (.text "v") (.list [.int 150]) [.int 150] ∧
      FormInvoked e spyShared (fun _ => .text "v") (fun _ => spyRules) ∧
      (e.validate spyShared "x" (.text "v") (.list [.int 150])).2.notes =
        [.validator "no" "v" ["a", "b", "150"], .validator "boom" "v" ["150"],
          .validator "later" "v" ["150"], .validator "no" "v" ["150"]] := by
  have hrules : (spyEngine.attach "x" (Rule.readAll (Rule.writeAll spyRules))).Declares "x" spyRules :=
    declares_attach spyEngine "x" fun r hr => Rule.canonical_of_mem_readAll hr
  have hextra := givenParams_list [.int 150]
  obtain ⟨hfield, hform⟩ := every_rule_invoked hrules hextra spyShared (.text "v")
  refine ⟨hrules, hextra, hfield, hform _ _ ?_, by decide⟩
  intro f hf
  obtain rfl : f = "x" := by simpa [spyEngine, fieldNames, attach, renew, Table.put, Table.keys] using hf
  exact hrules

end Engine

end FieldRules
