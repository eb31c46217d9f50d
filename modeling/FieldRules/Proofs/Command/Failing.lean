import FieldRules.Builtin
import FieldRules.Proofs.Engine.Form
import FieldRules.Proofs.Engine.Joining

/-!
# Rules that fail on a value

`Rule.Fails` says what it is for a rule to fail on a value, rule by rule and apart from engines: nobody
knows the name, or the validator gives up, or its answer is not true, be it given at once or put off.
What is put off is a task that is run with some probe.

A call of the rule comes to false in exactly these cases (`comesTo_callRule`), so the entries of a field
are those of its rules that fail (`entriesFor_dispatch`).
-/

namespace FieldRules

/-- What an answer that was put off comes to with a probe. A gate that nobody opens brings nothing. -/
def Deferred.land (probe : Probe) : Deferred → Except Fault Value
  | .gate _ => .error .wrongKind
  | .task run => (run probe).result

/-- A rule fails on a value, by the validators of a catalog. -/
inductive Rule.Fails (catalog : Catalog) (probe : Probe) (r : Rule) (value : Value) : Prop
  /-- Nobody knows the name. -/
  | unknown (hname : catalog.get? r.name = none)
  /-- The validator gives up. -/
  | gaveUp {d : Definition} {f : Fault} (hname : catalog.get? r.name = some d)
      (hanswer : (d.validate value (r.params.map .text)).result = .fault f)
  /-- The validator answers at once with something that is not true. -/
  | refused {d : Definition} {v : Value} (hname : catalog.get? r.name = some d)
      (hanswer : (d.validate value (r.params.map .text)).result = .now v) (hfalse : v.truthy = false)
  /-- The answer is put off, and comes to a fault. -/
  | rejected {d : Definition} {a : Deferred} {f : Fault} (hname : catalog.get? r.name = some d)
      (hanswer : (d.validate value (r.params.map .text)).result = .later a)
      (hfault : a.land probe = .error f)
  /-- The answer is put off, and comes to something that is not true. -/
  | refusedLater {d : Definition} {a : Deferred} {v : Value} (hname : catalog.get? r.name = some d)
      (hanswer : (d.validate value (r.params.map .text)).result = .later a)
      (hlanded : a.land probe = .ok v) (hfalse : v.truthy = false)

/-! ## What calls come to -/

/-- What a call comes to with a probe. -/
def RuleCall.comesTo (probe : Probe) (c : RuleCall) : Bool :=
  match c.outcome with
  | .settled passed => passed
  | .pending d => passedBy (d.land probe)

/-- What is delivered for calls that were put off, in their places. -/
def landings (probe : Probe) (calls : List RuleCall) (i : Nat) : Except Fault Value :=
  match calls[i]? with
  | none => .ok .null
  | some c => match c.outcome with
    | .settled _ => .ok .null
    | .pending d => d.land probe

theorem resultsOf_landings (probe : Probe) (calls : List RuleCall) :
    resultsOf (landings probe calls) calls = calls.map (RuleCall.comesTo probe) := by
  apply List.ext_getElem?
  intro i
  rw [resultsOf, List.getElem?_mapIdx, List.getElem?_map]
  cases hc : calls[i]? with
  | none => rfl
  | some c =>
      simp only [Option.map_some, Option.some.injEq, RuleCall.passedAs, RuleCall.comesTo, landings, hc]
      cases c.outcome <;> rfl

/-- A call waits for a gate. -/
def RuleCall.WaitsForGate (c : RuleCall) : Prop := ∃ g, c.outcome = .pending (.gate g)

/-- Calls that wait for no gate settle as soon as they are started. -/
theorem settle?_startAll {gates : Gates} (probe : Probe) {calls : List RuleCall}
    (h : ∀ c ∈ calls, ¬ c.WaitsForGate) :
    settle? gates (startAll probe calls).result = some (calls.map (RuleCall.comesTo probe)) := by
  induction calls with
  | nil => rfl
  | cons c calls ih =>
      obtain ⟨hfirst, hrest⟩ := List.forall_mem_cons.mp h
      have hsettled : (c.outcome.start probe).result.passed? gates = some (c.comesTo probe) := by
        unfold RuleCall.comesTo
        -- A task has landed as soon as it was started, so only a gate could hold the call up.
        rcases hout : c.outcome with passed | ⟨g | run⟩
        · rfl
        · exact absurd ⟨g, hout⟩ hfirst
        · rfl
      have hothers := ih hrest
      simp only [settle?_eq_mapM, startAll, List.map_cons, List.mapM_cons] at hothers ⊢
      rw [hsettled, hothers]
      rfl

/-! ## Rules and their calls -/

section

variable {catalog : Catalog} {probe : Probe} {value : Value}

/-- The call of a rule comes to false exactly if the rule fails. -/
theorem comesTo_callRule (r : Rule) :
    (callRule catalog.get? value [] r).result.comesTo probe = false ↔ r.Fails catalog probe value := by
  have hparams : callParams r [] = r.params.map .text := List.append_nil _
  simp only [callRule, hparams]
  -- The cases are those of `Rule.Fails`: each is what the call asks next.
  cases hname : catalog.get? r.name with
  | none =>
      constructor
      · intro _
        exact .unknown hname
      · intro _
        rfl
  | some d =>
      simp only [RuleCall.comesTo, invoke]
      cases hanswer : (d.validate value (r.params.map .text)).result with
      | fault f =>
          constructor
          · intro _
            exact .gaveUp hname hanswer
          · intro _
            rfl
      | now v =>
          constructor
          · intro hfalse
            exact .refused hname hanswer hfalse
          · intro hfails
            cases hfails <;> simp_all
      | later a =>
          simp only [passedBy]
          cases hlanded : a.land probe with
          | error f =>
              constructor
              · intro _
                exact .rejected hname hanswer hlanded
              · intro _
                rfl
          | ok v =>
              constructor
              · intro hfalse
                exact .refusedLater hname hanswer hlanded hfalse
              · intro hfails
                cases hfails <;> simp_all

instance (catalog : Catalog) (probe : Probe) (r : Rule) (value : Value) :
    Decidable (r.Fails catalog probe value) :=
  decidable_of_iff _ (comesTo_callRule r)

/-- The entries of a field are those of the rules that fail, in the order of the rules. -/
theorem entriesFor_dispatch (field : String) (message : RuleCall → String) (rules : List Rule) :
    let calls := (dispatch catalog.get? value [] rules).result
    entriesFor field message calls (calls.map (RuleCall.comesTo probe)) =
      (rules.filter fun r => r.Fails catalog probe value).map fun r =>
        { field, message := message (callRule catalog.get? value [] r).result, rule := some r.name } := by
  intro calls
  have hcalls : calls = rules.map fun r => (callRule catalog.get? value [] r).result := by
    simp only [calls, dispatch, List.map_map]
    rfl
  have hzip : calls.zip (calls.map (RuleCall.comesTo probe)) =
      rules.map fun r => ((callRule catalog.get? value [] r).result,
        (callRule catalog.get? value [] r).result.comesTo probe) := by
    rw [hcalls, List.map_map, List.zip_map']
    rfl
  rw [entriesFor, hzip, List.filter_map, List.map_map]
  have hsame : rules.filter ((fun x => !x.2) ∘ fun r =>
        ((callRule catalog.get? value [] r).result,
          (callRule catalog.get? value [] r).result.comesTo probe)) =
      rules.filter fun r => r.Fails catalog probe value := by
    apply List.filter_congr
    intro r _
    rw [Function.comp_apply, Bool.eq_iff_iff, Bool.not_eq_true', comesTo_callRule, decide_eq_true_eq]
  rw [hsame]
  apply List.map_congr_left
  intro r _
  simp only [Function.comp_apply, Engine.rule_callRule]

end

/-! ## The fields of an engine -/

namespace Engine

/-- An engine with rules and no validators of its own looks names up in the catalog. -/
theorem resolve_ofRules (rules : Table String (List Rule)) (locale : Key)
    (attributes : Table String String) (catalog : Catalog) :
    (ofRules rules locale attributes).overlay.resolve catalog = catalog.get? := by
  rw [sameSetup_ofRules rules locale attributes]
  rfl

/-- The message for a rule that fails: that of its definition, if the name is known. -/
def failureMessage (shared : Shared) (locale : Key) (field : String) (r : Rule) : String :=
  match shared.catalog.get? r.name with
  | none => unknownRuleMessage field r.name
  | some d => d.resolveMessage shared.dictionary field (r.params.map .text) locale

theorem messageFor_callRule {e : Engine} (shared : Shared) (field : String) (value : Value) (r : Rule) :
    e.messageFor shared field (callRule shared.catalog.get? value [] r).result =
      failureMessage shared e.locale field r := by
  have hparams : callParams r [] = r.params.map .text := List.append_nil _
  unfold failureMessage
  cases hname : shared.catalog.get? r.name with
  | none => simp only [callRule, hname, messageFor]
  | some d => simp only [callRule, hname, messageFor, hparams]

/-- The failures of an engine with rules are those of the rules that fail: field after field, and of
each field in the order of its rules. -/
theorem formEntries_ofRules {rules : Table String (List Rule)} (hnodup : (Table.keys rules).Nodup)
    (shared : Shared) (probe : Probe) (locale : Key) (values : String → Value) :
    let e := ofRules rules locale []
    e.formEntries shared values (fun f => landings probe (e.callsOf shared f (values f))) =
      rules.flatMap fun f =>
        (f.2.filter fun r => r.Fails shared.catalog probe (values f.1)).map fun r =>
          { field := f.1, message := failureMessage shared locale f.1 r, rule := some r.name } := by
  intro e
  have hsetup := sameSetup_ofRules rules locale []
  rw [Table.ofPairs_of_nodup hnodup] at hsetup
  have hfields : e.fields = rules := hsetup.fields
  have hlocale : e.locale = locale := by rw [show e = _ from hsetup]
  have hdisplay : ∀ f, e.displayName f = f := by
    intro f
    have hattributes : e.attributes = [] := by rw [show e = _ from hsetup]
    rw [displayName, hattributes]
    rfl
  have hnames : e.fieldNames = rules.map (·.1) := by rw [fieldNames, hfields, Table.keys]
  rw [formEntries, hnames, List.flatMap_map]
  apply List.flatMap_congr
  intro f hf
  have hrules : e.rulesFor f.1 = f.2 := by
    rw [rulesFor, rules?, hfields, Table.get?_eq_some_of_mem hnodup hf, Option.getD_some]
  have hcalls : e.callsOf shared f.1 (values f.1) =
      (dispatch shared.catalog.get? (values f.1) [] f.2).result := by
    rw [callsOf, resolve_ofRules, hrules]
  rw [resultsFor, resultsOf_landings, hcalls, entriesFor_dispatch]
  apply List.map_congr_left
  intro r _
  rw [messages, hdisplay, messageFor_callRule, hlocale]

end Engine

end FieldRules
