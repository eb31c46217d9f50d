import FieldRules.Proofs.Engine.Canonical
import FieldRules.Proofs.Engine.Joining
import FieldRules.Proofs.Engine.Mirror

/-!
# Failures of validators are contained

A validator may give up, at once or later, and a name may be unknown: the validation goes on and ends
with a result, and everything is as if the validator had said false (`validations_contained`). The
course of an engine is the same, event by event, when false is put in place of every fault and of every
answer that is delivered as one; and a validation ends with the same bag and the same result when false
comes at once in place of what is put off and will be rejected.
-/

namespace FieldRules

/-! ## False in place of faults -/

/-- False in place of a fault, and of what was put off if it will be rejected. -/
def Answer.contained (rejected : Deferred → Bool) : Answer → Answer
  | .now v => .now v
  | .later d => if rejected d then .now (.bool false) else .later d
  | .fault _ => .now (.bool false)

/-- What is known of a call when what will be rejected has failed at once. -/
def Outcome.contained (rejected : Deferred → Bool) : Outcome → Outcome
  | .settled passed => .settled passed
  | .pending d => if rejected d then .settled false else .pending d

/-- False in place of faults, and of what will be rejected. -/
def Exchange.contained (rejected : Deferred → Bool) : Exchange where
  answer := Answer.contained rejected
  outcome := Outcome.contained rejected
  outcome_answer := by
    intro a
    cases a with
    | later d =>
        show (if rejected d then Answer.now (.bool false) else .later d).outcome =
          if rejected d then .settled false else .pending d
        split <;> rfl
    | _ => rfl
  settled := fun _ => rfl

/-- False in place of faults that come at once. -/
def Exchange.caught : Exchange := .contained fun _ => false

theorem Exchange.keeps_caught : Exchange.caught.Keeps := by
  intro o
  cases o <;> rfl

/-- False in place of a fault that is delivered. -/
def falseInstead : Except Fault Value → Except Fault Value
  | .ok v => .ok v
  | .error _ => .ok (.bool false)

theorem passedBy_falseInstead (a : Except Fault Value) : passedBy (falseInstead a) = passedBy a := by
  cases a <;> rfl

/-- What will be rejected comes to a failure, and everything else to the same in both. -/
def Spares (rejected : Deferred → Bool) (calls : List RuleCall)
    (delivered delivered' : Nat → Except Fault Value) : Prop :=
  ∀ (i : Nat) (c : RuleCall) (d : Deferred), calls[i]? = some c → c.outcome = .pending d →
    if rejected d then passedBy (delivered i) = false
    else passedBy (delivered' i) = passedBy (delivered i)

theorem Spares.passedAs {rejected : Deferred → Bool} {calls : List RuleCall}
    {delivered delivered' : Nat → Except Fault Value} (h : Spares rejected calls delivered delivered')
    (i : Nat) (c : RuleCall) (hc : calls[i]? = some c) :
    (c.exchanged (.contained rejected)).passedAs (delivered' i) = c.passedAs (delivered i) := by
  have hspared := h i c
  simp only [RuleCall.passedAs, RuleCall.exchanged, Exchange.contained]
  cases hout : c.outcome with
  | settled passed => rfl
  | pending d =>
      have hd := hspared d hc hout
      simp only [Outcome.contained]
      by_cases hrejected : rejected d = true
      · rw [if_pos hrejected] at hd
        simp only [hrejected, if_true, hd]
      · rw [if_neg hrejected] at hd
        simp only [hrejected, Bool.false_eq_true, if_false, hd]

/-! ## A validation from its call to its end -/

/-- The validation of a field from its call to its end: what was put off is delivered right away. -/
def Engine.judge (e : Engine) (shared : Shared) (field : String) (value extra : Value)
    (delivered : Nat → Except Fault Value) : Engine × Except Fault Bool :=
  let (e, answer) := e.validate shared field value extra
  match answer.result with
  | .error f => (e, .error f)
  | .ok (.known passed) => (e, .ok passed)
  | .ok (.pending p) =>
    let (e, passed) := e.finish shared p (resultsOf delivered p.calls)
    (e, .ok passed)

namespace Engine

variable {e : Engine} {shared : Shared} {field : String} {value extra : Value}

/-- With a list of parameters no validation is refused. -/
theorem validate_answers (e : Engine) (shared : Shared) (field : String) (value : Value) {extra : Value}
    (hextra : extra.truthy = true → extra.members?.isSome = true) :
    ∃ verdict, (e.validate shared field value extra).2.result = .ok verdict := by
  cases hasked : e.asked shared field value extra with
  | undeclared => exact ⟨.known true, by rw [validate_undeclared hasked]⟩
  | refused f =>
      exfalso
      unfold asked at hasked
      split at hasked
      · simp at hasked
      · rename_i rules _
        have hparams : ∃ params,
            extraParams rules (if extra.truthy then extra else .list []) = .ok params := by
          unfold extraParams
          split
          · exact ⟨[], rfl⟩
          · by_cases htruthy : extra.truthy = true
            · obtain ⟨params, hmembers⟩ := Option.isSome_iff_exists.mp (hextra htruthy)
              exact ⟨params, by rw [if_pos htruthy, hmembers]; rfl⟩
            · exact ⟨[], by rw [if_neg htruthy]; rfl⟩
        obtain ⟨params, hparams⟩ := hparams
        simp [hparams] at hasked
  | calls cs =>
      cases hpending : cs.any RuleCall.isPending with
      | true => exact ⟨_, (validate_pending hasked hpending).2⟩
      | false => exact ⟨_, (validate_known hasked hpending).2⟩

/-- Whether or not it is the latest of its field, a validation that ends tells whether all passed. -/
theorem result_finish (e : Engine) (shared : Shared) (p : PendingField) (passed : List Bool) :
    (e.finish shared p passed).2 = passed.all id := by
  by_cases hgen : e.generation p.field = p.generation
  · rw [finish_current hgen]
  · rw [finish_stale hgen]

/-- Whether or not something is put off, the entries of the field become those of the rules that
failed. -/
theorem judge_of_calls {cs : List RuleCall} (h : e.asked shared field value extra = .calls cs)
    (delivered : Nat → Except Fault Value) :
    e.judge shared field value extra delivered =
      ({ e.renew field with
          bag := (entriesFor field (e.messages shared field) cs (resultsOf delivered cs)).foldl Bag.add
            (e.bag.remove field) },
        .ok ((resultsOf delivered cs).all id)) := by
  cases hpending : cs.any RuleCall.isPending with
  | true =>
      obtain ⟨hengine, hresult⟩ := validate_pending h hpending
      have hgen : (e.renew field).generation field = e.generation field + 1 := by
        rw [generation_renew, if_pos rfl]
      let p : PendingField := { field, generation := e.generation field + 1, calls := cs }
      have hends : (e.renew field).finish shared p (resultsOf delivered cs) = _ :=
        finish_current hgen _
      simp only [judge, hresult, hengine, p, hends]
      have hremoved : ((e.renew field).bag.remove field) = e.bag.remove field :=
        Bag.remove_remove_self e.bag field
      rw [hremoved]
      rfl
  | false =>
      obtain ⟨hengine, hresult⟩ := validate_known h hpending
      simp only [judge, hresult, hengine, resultsOf_of_settled hpending]

/-- With false at once in place of faults and of what will be rejected, a validation ends the same. -/
theorem judge_contained {rejected : Deferred → Bool} {delivered delivered' : Nat → Except Fault Value}
    (h : ∀ cs, e.asked shared field value extra = .calls cs →
      Spares rejected cs delivered delivered') :
    (e.exchanged (.contained rejected)).judge (shared.exchanged (.contained rejected)) field value
        extra delivered' =
      ((e.judge shared field value extra delivered).1.exchanged (.contained rejected),
        (e.judge shared field value extra delivered).2) := by
  have hasked' := asked_exchanged (.contained rejected) e shared field value extra
  cases hasked : e.asked shared field value extra with
  | undeclared =>
      rw [hasked] at hasked'
      simp only [judge, validate_undeclared hasked, validate_undeclared hasked']
      rfl
  | refused f =>
      rw [hasked] at hasked'
      simp only [judge, validate_refused hasked, validate_refused hasked']
      rfl
  | calls cs =>
      rw [hasked] at hasked'
      have hresults := resultsOf_exchanged (.contained rejected) (h cs hasked).passedAs
      rw [judge_of_calls hasked, judge_of_calls hasked', hresults, messages_exchanged,
        entriesFor_exchanged]
      rfl

end Engine

/-! ## Messages make the texts -/

/-- What a call says, apart from its message. -/
def RuleCall.said (c : RuleCall) : Rule × Outcome := (c.rule, c.outcome)

/-- What an entry says, apart from its message. -/
def Entry.said (x : Entry) : String × Option String := (x.field, x.rule)

theorem said_dispatch {resolve resolve' : Resolver}
    (h : ∀ name, (resolve' name).map (·.validate) = (resolve name).map (·.validate)) (value : Value)
    (extra : List Value) (rules : List Rule) :
    (dispatch resolve' value extra rules).result.map RuleCall.said =
      (dispatch resolve value extra rules).result.map RuleCall.said := by
  simp only [dispatch, List.map_map]
  apply List.map_congr_left
  intro rule _
  have hsame := h rule.name
  simp only [Function.comp_apply, callRule]
  cases hd : resolve rule.name with
  | none =>
      rw [hd, Option.map_none, Option.map_eq_none_iff] at hsame
      rw [hsame]
  | some d =>
      rw [hd, Option.map_some, Option.map_eq_some_iff] at hsame
      obtain ⟨d', hd', hvalidate⟩ := hsame
      rw [hd']
      simp only [RuleCall.said, result_invoke, hvalidate]

theorem resultsOf_of_said {cs cs' : List RuleCall} (h : cs'.map RuleCall.said = cs.map RuleCall.said)
    (delivered : Nat → Except Fault Value) : resultsOf delivered cs' = resultsOf delivered cs := by
  unfold resultsOf
  apply List.ext_getElem?
  intro i
  have hi := congrArg (fun l => l[i]?) h
  simp only [List.getElem?_map] at hi
  rw [List.getElem?_mapIdx, List.getElem?_mapIdx]
  cases hc : cs[i]? with
  | none =>
      rw [hc, Option.map_none, Option.map_eq_none_iff] at hi
      rw [hi]
  | some c =>
      rw [hc, Option.map_some, Option.map_eq_some_iff] at hi
      obtain ⟨c', hc', hsaid⟩ := hi
      have hout : c'.outcome = c.outcome := congrArg Prod.snd hsaid
      simp only [hc', Option.map_some, RuleCall.passedAs, hout]

theorem said_entriesFor {cs cs' : List RuleCall} (h : cs'.map RuleCall.said = cs.map RuleCall.said)
    (field : String) (message message' : RuleCall → String) (passed : List Bool) :
    (entriesFor field message' cs' passed).map Entry.said =
      (entriesFor field message cs passed).map Entry.said := by
  have hsaid : ∀ (message : RuleCall → String) (cs : List RuleCall),
      (entriesFor field message cs passed).map Entry.said =
        (((cs.map RuleCall.said).zip passed).filter fun x => !x.2).map
          fun x => (field, some x.1.1.name) := by
    intro message cs
    rw [entriesFor, List.zip_map_left, List.filter_map, List.map_map, List.map_map]
    rfl
  rw [hsaid, hsaid, h]

namespace Engine

/-- With the same validators under all names a validation ends with the same result and with entries
for the same rules, whatever the messages are and whether they can be made or not. -/
theorem said_judge {e e' : Engine} {shared shared' : Shared} (hfields : e'.fields = e.fields)
    (hbag : e'.bag = e.bag)
    (hvalidators : ∀ name, (e'.overlay.resolve shared'.catalog name).map (·.validate) =
      (e.overlay.resolve shared.catalog name).map (·.validate))
    (field : String) (value extra : Value) (delivered : Nat → Except Fault Value) :
    (e'.judge shared' field value extra delivered).2 =
        (e.judge shared field value extra delivered).2 ∧
      (e'.judge shared' field value extra delivered).1.bag.entries.map Entry.said =
        (e.judge shared field value extra delivered).1.bag.entries.map Entry.said := by
  have hrules : e'.rules? field = e.rules? field := by rw [rules?, rules?, hfields]
  have hrenewed : (e'.renew field).bag = (e.renew field).bag := by
    simp only [renew, hbag]
  cases hfield : e.rules? field with
  | none =>
      have hasked : e.asked shared field value extra = .undeclared := by simp only [asked, hfield]
      have hasked' : e'.asked shared' field value extra = .undeclared := by
        simp only [asked, hrules, hfield]
      simp only [judge, validate_undeclared hasked, validate_undeclared hasked', hrenewed, and_self]
  | some rules =>
      cases hparams : extraParams rules (if extra.truthy then extra else .list []) with
      | error f =>
          have hasked : e.asked shared field value extra = .refused f := by
            simp only [asked, hfield, hparams]
          have hasked' : e'.asked shared' field value extra = .refused f := by
            simp only [asked, hrules, hfield, hparams]
          simp only [judge, validate_refused hasked, validate_refused hasked', hrenewed, and_self]
      | ok params =>
          have hasked : e.asked shared field value extra =
              .calls (dispatch (e.overlay.resolve shared.catalog) value params rules).result := by
            simp only [asked, hfield, hparams]
          have hasked' : e'.asked shared' field value extra =
              .calls (dispatch (e'.overlay.resolve shared'.catalog) value params rules).result := by
            simp only [asked, hrules, hfield, hparams]
          have hsaid := said_dispatch hvalidators value params rules
          have hresults := resultsOf_of_said hsaid delivered
          rw [judge_of_calls hasked, judge_of_calls hasked', hresults]
          refine ⟨rfl, ?_⟩
          simp only [Bag.entries_foldl_add, List.map_append, hbag,
            said_entriesFor hsaid field (e.messages shared field) (e'.messages shared' field)]

end Engine

/-! ## What a job waits for -/

/-- The gate that a call waits for before it is started. -/
def Outcome.gate? : Outcome → Option String
  | .pending (.gate g) => some g
  | _ => none

/-- The gate that a call waits for after it was started. -/
def Progress.gate? : Progress → Option String
  | .waits g => some g
  | _ => none

/-- The gates that a part of a job waits for. -/
def JobPart.gates : JobPart → List String
  | .known _ => []
  | .ended _ => []
  | .waiting p => p.calls.filterMap (·.outcome.gate?)
  | .running _ progress => progress.filterMap Progress.gate?

namespace Job

/-- Once every gate is open, the results are there. -/
theorem isSome_settle? {gates : Gates} {progress : List Progress}
    (h : ∀ g ∈ progress.filterMap Progress.gate?, (Table.get? gates g).isSome = true) :
    (settle? gates progress).isSome = true := by
  rw [settle?_eq_mapM]
  induction progress with
  | nil => rfl
  | cons first rest ih =>
      have hrest := ih fun g hg => h g (by
        rw [List.filterMap_cons]
        split
        · exact hg
        · exact List.mem_cons_of_mem _ hg)
      obtain ⟨results, hresults⟩ := Option.isSome_iff_exists.mp hrest
      have hfirst : (first.passed? gates).isSome = true := by
        cases first with
        | known passed => rfl
        | landed passed => rfl
        | waits g => exact h g List.mem_cons_self
      obtain ⟨result, hresult⟩ := Option.isSome_iff_exists.mp hfirst
      simp [List.mapM_cons, hresult, hresults]

/-- A part that was started is not waiting to be started, and waits for the gates that it waited for. -/
theorem gates_startPart (probe : Probe) (part : JobPart) :
    (startPart probe part).result.gates = part.gates ∧
      ∀ p, (startPart probe part).result ≠ .waiting p := by
  cases part with
  | known passed => exact ⟨rfl, by simp [startPart]⟩
  | ended passed => exact ⟨rfl, by simp [startPart]⟩
  | running p progress => exact ⟨rfl, by simp [startPart]⟩
  | waiting p =>
      refine ⟨?_, by simp [startPart]⟩
      simp only [startPart, startAll, JobPart.gates, List.filterMap_map, List.map_map]
      apply List.filterMap_congr
      intro c _
      simp only [Function.comp_apply]
      rcases c.outcome with passed | ⟨g | run⟩ <;> rfl

/-- A part that was started ends once every gate is open that it waits for, whatever its calls come to. -/
theorem ended_of_open {gates : Gates} (shared : Shared) (e : Engine) {part : JobPart}
    (hstarted : ∀ p, part ≠ .waiting p)
    (hopen : ∀ g ∈ part.gates, (Table.get? gates g).isSome = true) :
    ∃ passed, endedPart? (endPart gates shared e part).2 = some passed := by
  cases part with
  | known passed => exact ⟨passed, rfl⟩
  | ended passed => exact ⟨passed, rfl⟩
  | waiting p => exact absurd rfl (hstarted p)
  | running p progress =>
      obtain ⟨results, hresults⟩ := Option.isSome_iff_exists.mp (isSome_settle? hopen)
      exact ⟨(e.finish shared p results).2, by simp only [endPart, hresults, endedPart?]⟩

theorem parts_ended_of_open {gates : Gates} (shared : Shared) (e : Engine) {parts : List JobPart}
    (hstarted : ∀ part ∈ parts, ∀ p, part ≠ .waiting p)
    (hopen : ∀ part ∈ parts, ∀ g ∈ part.gates, (Table.get? gates g).isSome = true) :
    ∃ passed : List Bool, (endParts gates shared e parts).2.map endedPart? = passed.map some := by
  induction parts generalizing e with
  | nil => exact ⟨[], rfl⟩
  | cons part rest ih =>
      obtain ⟨hpart, hparts⟩ := List.forall_mem_cons.mp hstarted
      obtain ⟨hgates, hrest⟩ := List.forall_mem_cons.mp hopen
      obtain ⟨first, hfirst⟩ := ended_of_open shared e hpart hgates
      obtain ⟨others, hothers⟩ := ih (endPart gates shared e part).1 hparts hrest
      refine ⟨first :: others, ?_⟩
      rw [List.map_cons, ← hfirst, ← hothers]
      rfl

/-- A job has its result once it was started and every gate is open that it waits for. -/
theorem result?_of_open (j : Job) (probe : Probe) {gates : Gates} (shared : Shared) (e : Engine)
    (hopen : ∀ g ∈ j.parts.flatMap JobPart.gates, (Table.get? gates g).isSome = true) :
    (((j.start probe).result.advance gates shared e).2.result?).isSome = true := by
  have hparts : ∀ part ∈ (j.start probe).result.parts, (∀ p, part ≠ .waiting p) ∧
      ∀ g ∈ part.gates, (Table.get? gates g).isSome = true := by
    intro part hpart
    simp only [start, List.map_map, List.mem_map, Function.comp_apply] at hpart
    obtain ⟨before, hbefore, rfl⟩ := hpart
    obtain ⟨hgates, hstarted⟩ := gates_startPart probe before
    refine ⟨hstarted, fun g hg => hopen g ?_⟩
    rw [hgates] at hg
    exact List.mem_flatMap.mpr ⟨before, hbefore, hg⟩
  obtain ⟨passed, hpassed⟩ := parts_ended_of_open shared e (fun part h => (hparts part h).1)
    (fun part h => (hparts part h).2)
  have hresult : ((j.start probe).result.advance gates shared e).2.result? =
      (((endParts gates shared e (j.start probe).result.parts).2.mapM endedPart?).map
        fun passed => passed.all id) := congrArg (Option.map _) (results?_eq_mapM _)
  rw [hresult, Course.mapM_endedPart?_eq_some.mpr hpassed]
  rfl

end Job

namespace Course

/-- It is where some course of some engine came to. -/
def Reached (c : Course) : Prop :=
  ∃ shared locale attributes events, c = (fresh shared locale attributes).run events

/-- Failures of validators are contained, wherever a course stands. -/
structure Contained (c : Course) : Prop where
  /-- A validation with a list of parameters is known or pending; so is each that the validation of all
  fields makes. -/
  answers : ∀ e, Engine.SameSetup c.engine e → ∀ field value extra,
    (extra.truthy = true → extra.members?.isSome = true) →
      ∃ verdict, (e.validate c.shared field value extra).2.result = .ok verdict
  /-- A pending validation ends, whatever is delivered, and tells whether every call passed. -/
  ends : ∀ job part p delivered, c.waiting? job part = some p →
    (c.step (.finish job part delivered)).part? job part =
      some (.ended ((resultsOf delivered p.calls).all id))
  /-- A job has its result once every gate is open that it waits for, whatever its tasks come to. -/
  settles : ∀ (j : Job) probe gates shared e,
    (∀ g ∈ j.parts.flatMap JobPart.gates, (Table.get? gates g).isSome = true) →
      (((j.start probe).result.advance gates shared e).2.result?).isSome = true
  /-- With false in place of every fault, and of every fault that is delivered, all that happens leads
  to the same: the same bag, the same results, the same jobs. -/
  caught : ∀ more, (c.exchanged .caught).run (more.map (·.exchanged .caught falseInstead)) =
    (c.run more).exchanged .caught
  /-- With false at once in place of faults and of what will be rejected, the validation of a field
  ends with the same engine and the same result. -/
  single : ∀ rejected delivered delivered' field value extra,
    (∀ cs, c.engine.asked c.shared field value extra = .calls cs →
      Spares rejected cs delivered delivered') →
    (c.engine.exchanged (.contained rejected)).judge (c.shared.exchanged (.contained rejected)) field
        value extra delivered' =
      ((c.engine.judge c.shared field value extra delivered).1.exchanged (.contained rejected),
        (c.engine.judge c.shared field value extra delivered).2)
  /-- So does the validation of all fields, wherever a course came to and whatever else ends in between,
  and in both every rule of every field says the same. -/
  all : c.Reached → ∀ rejected values delivered delivered',
    (∀ f ∈ c.engine.fieldNames, Spares rejected (c.engine.callsOf c.shared f (values f)) (delivered f)
      (delivered' f)) →
    (∀ f ∈ c.engine.fieldNames,
      (c.engine.exchanged (.contained rejected)).judgements (c.shared.exchanged (.contained rejected))
        values delivered' f = c.engine.judgements c.shared values delivered f) ∧
    ∀ e passed e' passed', c.FormEnds values delivered e passed →
      (c.answering (.contained rejected)).FormEnds values delivered' e' passed' →
        e'.bag.entries = e.bag.entries ∧ passed' = passed
  /-- Messages make the texts of entries and nothing else: with the same validators under all names a
  validation ends with the same result and with entries for the same rules, whether messages can be made
  or not. -/
  texts : ∀ (e : Engine) (shared : Shared), e.fields = c.engine.fields → e.bag = c.engine.bag →
    (∀ name, (e.overlay.resolve shared.catalog name).map (·.validate) =
      (c.engine.overlay.resolve c.shared.catalog name).map (·.validate)) →
    ∀ field value extra delivered,
      (e.judge shared field value extra delivered).2 =
          (c.engine.judge c.shared field value extra delivered).2 ∧
        (e.judge shared field value extra delivered).1.bag.entries.map Entry.said =
          (c.engine.judge c.shared field value extra delivered).1.bag.entries.map Entry.said

/-- Failures of validators are contained, for every engine and in every state. -/
theorem validations_contained (c : Course) : c.Contained where
  answers := by
    intro e _ field value extra hextra
    exact e.validate_answers c.shared field value hextra
  ends := by
    intro job part p delivered hp
    obtain ⟨old, hold, -⟩ := Option.bind_eq_some_iff.mp hp
    rw [← Engine.result_finish c.engine c.shared p]
    simp only [step, hp]
    exact part?_setPart_self hold _
  settles := fun j probe _ shared e hopen => Job.result?_of_open j probe shared e hopen
  caught := run_exchanged c Exchange.keeps_caught passedBy_falseInstead
  single := fun _ _ _ _ _ _ hspared => Engine.judge_contained hspared
  all := by
    rintro ⟨shared, locale, attributes, events, rfl⟩ rejected values delivered delivered' hspared
    have hc := (consistent_fresh shared locale attributes).run events
    have hsay := fun f hf =>
      Engine.judgements_exchanged (.contained rejected) (hspared f hf).passedAs
    exact ⟨hsay, fun _ _ _ _ hends hends' => hc.same (hc.answering _) rfl hsay hends hends'⟩
  texts := fun _ _ hfields hbag hvalidators => Engine.said_judge hfields hbag hvalidators

end Course

end FieldRules
