import FieldRules.Command.Run
import FieldRules.Proofs.Catalog.Builtin
import FieldRules.Proofs.Command.Failing
import FieldRules.Proofs.Engine.Canonical
import FieldRules.Proofs.Engine.Contained
import FieldRules.Proofs.Host.Settle

/-!
# Judged to the end

A command has nobody who would open a gate, and with the validators that everybody has nothing waits
for one (`Builtin.answers_itself`): what is put off is a task. So when a command validates all fields,
every part of the job ends as soon as it is started, and what the command does is a course of the engine
in which the validation of all fields ends (`formEnds_validateFully`).
-/

namespace FieldRules

/-! ## No validator waits for a gate -/

/-- No call of rules waits for a gate if every name stands for a validator that everybody has. -/
theorem not_waitsForGate_dispatch (value : Value) (rules : List Rule) :
    ∀ c ∈ (dispatch Builtin.catalog.get? value [] rules).result, ¬ c.WaitsForGate := by
  intro c hc hgate
  simp only [dispatch, List.map_map, List.mem_map, Function.comp_apply] at hc
  obtain ⟨r, -, rfl⟩ := hc
  obtain ⟨g, hg⟩ := hgate
  unfold callRule at hg
  cases hname : Builtin.catalog.get? r.name with
  | none => simp [hname] at hg
  | some d =>
      simp only [hname, invoke] at hg
      have hself := Builtin.answers_itself hname value (callParams r []) g
      cases hanswer : (d.validate value (callParams r [])).result with
      | now v => simp [hanswer] at hg
      | fault f => simp [hanswer] at hg
      | later a =>
          rw [hanswer] at hself
          simp only [hanswer, Outcome.pending.injEq] at hg
          exact hself (by rw [hg])

/-! ## Every part ends at once -/

/-- A part of a job that ends as soon as it is started: it waits for no gate, and what is delivered is
what its calls come to. -/
inductive JobPart.EndsAtOnce (probe : Probe) (delivered : Nat → Except Fault Value) : JobPart → Prop
  | known (passed : Bool) : EndsAtOnce probe delivered (.known passed)
  | waiting {p : PendingField} (hgates : ∀ c ∈ p.calls, ¬ c.WaitsForGate)
      (hdelivered : resultsOf delivered p.calls = p.calls.map (RuleCall.comesTo probe)) :
      EndsAtOnce probe delivered (.waiting p)

variable {probe : Probe}

theorem JobPart.EndsAtOnce.gates_eq_nil {delivered : Nat → Except Fault Value} {part : JobPart}
    (h : part.EndsAtOnce probe delivered) : part.gates = [] := by
  cases h with
  | known passed => rfl
  | @waiting p hgates hdelivered =>
      show p.calls.filterMap (·.outcome.gate?) = []
      rw [List.filterMap_eq_nil_iff]
      intro c hc
      rcases hout : c.outcome with passed | ⟨g | run⟩
      · rfl
      · exact absurd ⟨g, hout⟩ (hgates c hc)
      · rfl

/-- Such a part ends in the command as it does in the course, by one event. -/
theorem step_finish_endsAtOnce {delivered : Nat → Except Fault Value} {part : JobPart}
    (hpart : part.EndsAtOnce probe delivered) {c : Course} {pre rest : List JobPart}
    (hjobs : c.jobs = [{ parts := pre ++ part :: rest, whole := true }]) :
    let d := c.step (.finish 0 pre.length delivered)
    let last := Job.endPart [] c.shared c.engine (Job.startPart probe part).result
    d.engine = last.1 ∧ d.shared = c.shared ∧
      d.jobs = [{ parts := pre ++ last.2 :: rest, whole := true }] := by
  intro d last
  cases hpart with
  | known passed =>
      have hnone : c.waiting? 0 pre.length = none := by
        simp [Course.waiting?, Course.part?, hjobs, JobPart.pending?]
      have hsame : d = c := Course.step_finish_of_not_waiting hnone delivered
      rw [hsame]
      exact ⟨rfl, rfl, hjobs⟩
  | @waiting p hgates hdelivered =>
      have hsettled : settle? [] (startAll probe p.calls).result =
          some (resultsOf delivered p.calls) := by
        rw [settle?_startAll probe hgates, hdelivered]
      have hlast : last = ((c.engine.finish c.shared p (resultsOf delivered p.calls)).1,
          .ended (c.engine.finish c.shared p (resultsOf delivered p.calls)).2) := by
        simp only [last, Job.startPart, Job.endPart, hsettled]
      have hfirst : c.jobs = [] ++ { parts := pre ++ .waiting p :: rest, whole := true } :: [] := hjobs
      rw [hlast]
      exact Host.step_finish_waiting hfirst delivered

/-- The events that finish the parts of the first job from a place on. -/
def finishesFrom (answers : Nat → Nat → Except Fault Value) (place count : Nat) : List Course.Event :=
  (List.range' place count).map fun k => .finish 0 k (answers k)

/-- All parts end in the command as they do in the course, one after the other. -/
theorem run_finishesFrom {answers : Nat → Nat → Except Fault Value} (parts pre : List JobPart)
    (c : Course)
    (hparts : ∀ (k : Nat) (part : JobPart), parts[k]? = some part →
      part.EndsAtOnce probe (answers (pre.length + k)))
    (hjobs : c.jobs = [{ parts := pre ++ parts, whole := true }]) :
    let d := c.run (finishesFrom answers pre.length parts.length)
    let last := Job.endParts [] c.shared c.engine (parts.map fun part =>
      (Job.startPart probe part).result)
    d.engine = last.1 ∧ d.jobs = [{ parts := pre ++ last.2, whole := true }] := by
  induction parts generalizing pre c with
  | nil => exact ⟨rfl, hjobs⟩
  | cons part rest ih =>
      have hfirst : part.EndsAtOnce probe (answers pre.length) := hparts 0 part rfl
      obtain ⟨hengine, hshared, hafter⟩ := step_finish_endsAtOnce hfirst hjobs
      -- The part that has ended stands in front of those that are left.
      have hnext := ih (pre ++ [(Job.endPart [] c.shared c.engine (Job.startPart probe part).result).2])
        (c.step (.finish 0 pre.length (answers pre.length)))
        (by
          intro k later hk
          have hends := hparts (k + 1) later hk
          rw [List.length_append, List.length_singleton, Nat.add_assoc, Nat.add_comm 1 k]
          exact hends)
        (by rw [List.append_assoc]; exact hafter)
      have hevents : finishesFrom answers pre.length (part :: rest).length =
          .finish 0 pre.length (answers pre.length) ::
            finishesFrom answers (pre.length + 1) rest.length := by
        simp [finishesFrom, List.range'_succ]
      rw [hevents]
      simp only [List.length_append, List.length_singleton, hengine, hshared] at hnext
      refine ⟨hnext.1, ?_⟩
      rw [Course.run_cons, hnext.2, List.append_assoc]
      rfl

/-- Every part of a job ends at once. -/
def Job.EndsAtOnce (probe : Probe) (answers : Nat → Nat → Except Fault Value) (j : Job) : Prop :=
  ∀ (k : Nat) (part : JobPart), j.parts[k]? = some part → part.EndsAtOnce probe (answers k)

/-- A job whose parts all end at once comes to the same in the command and in the course. -/
theorem Job.EndsAtOnce.run_finishes {answers : Nat → Nat → Except Fault Value} {j : Job} {c : Course}
    (h : j.EndsAtOnce probe answers) (hjobs : c.jobs = [{ parts := j.parts, whole := true }]) :
    let d := c.run (finishesFrom answers 0 j.parts.length)
    let last := (j.start probe).result.advance [] c.shared c.engine
    d.engine = last.1 ∧ d.result? 0 = last.2.result? ∧ (d.jobs[0]?).any (·.whole) = true := by
  intro d last
  have hstarted : (j.start probe).result.parts =
      j.parts.map fun part => (Job.startPart probe part).result := by
    simp only [Job.start, List.map_map]
    rfl
  have hplaces : ∀ (k : Nat) (part : JobPart), j.parts[k]? = some part →
      part.EndsAtOnce probe (answers (0 + k)) := by
    intro k part hk
    rw [Nat.zero_add]
    exact h k part hk
  obtain ⟨hengine, hafter⟩ := run_finishesFrom j.parts [] c hplaces hjobs
  have hone : d.jobs = [{ parts := last.2.parts, whole := true }] := by
    simp only [last, Job.advance, hstarted]
    exact hafter
  refine ⟨?_, ?_, ?_⟩
  · simp only [last, Job.advance, hstarted]
    exact hengine
  · -- The job was started, so what it comes to is read off its parts in both.
    rw [Course.result?, hone]
    exact (congrArg (Option.map _) (Job.results?_eq_mapM last.2)).symm
  · rw [hone]
    rfl

/-- Such a job has its result. -/
theorem Job.EndsAtOnce.isSome_result? {answers : Nat → Nat → Except Fault Value} {j : Job}
    (h : j.EndsAtOnce probe answers) (shared : Shared) (e : Engine) :
    ((j.start probe).result.advance [] shared e).2.result?.isSome = true := by
  apply Job.result?_of_open
  intro g hg
  -- There is no gate that would have to be open.
  obtain ⟨part, hpart, hg⟩ := List.mem_flatMap.mp hg
  obtain ⟨k, hk⟩ := List.mem_iff_getElem?.mp hpart
  rw [(h k part hk).gates_eq_nil] at hg
  simp at hg

/-! ## The validation of all fields ends -/

namespace Command

open Course

theorem validateFully_of_known {e : Engine} {shared : Shared} {values : String → Value} {passed : Bool}
    (h : (e.validateAll shared values).2.result = .known passed) :
    validateFully e shared values = ((e.validateAll shared values).1, passed) := by
  simp only [validateFully, h]

theorem validateFully_of_pending {e : Engine} {shared : Shared} {values : String → Value}
    {verdicts : List Verdict} (h : (e.validateAll shared values).2.result = .pending verdicts) :
    validateFully e shared values =
      let last := ((Job.ofForm verdicts).start Image.probe).result.advance [] shared
        (e.validateAll shared values).1
      (last.1.sortBag, last.2.result?.getD false) := by
  simp only [validateFully, h]

/-- What is delivered for the calls of each field. -/
def delivery (c : Course) (values : String → Value) (f : String) : Nat → Except Fault Value :=
  landings Image.probe (c.engine.callsOf c.shared f (values f))

/-- The same, for the fields by their places. -/
def deliveryAt (c : Course) (values : String → Value) (place : Nat) : Nat → Except Fault Value :=
  match c.engine.fieldNames[place]? with
  | none => fun _ => .ok .null
  | some f => delivery c values f

variable {c : Course} {values : String → Value}

/-- The job that a validation of all fields has become ends at once. -/
theorem endsAtOnce_ofForm (hgates : ∀ f ∈ c.engine.fieldNames,
      ∀ x ∈ c.engine.callsOf c.shared f (values f), ¬ x.WaitsForGate)
    {verdicts : List Verdict}
    (hpending : (c.engine.validateAll c.shared values).2.result = .pending verdicts) :
    (Job.ofForm verdicts).EndsAtOnce Image.probe (deliveryAt c values) := by
  intro k part hk
  obtain ⟨-, hverdicts⟩ := Engine.validateAll_of_pending hpending
  simp only [Job.ofForm, List.getElem?_map, Option.map_eq_some_iff] at hk
  obtain ⟨v, hv, rfl⟩ := hk
  have hlt : k < c.engine.fieldNames.length := by
    rw [← Engine.length_result_validateEach c.engine c.shared values, hverdicts]
    exact (List.getElem?_eq_some_iff.mp hv).1
  have hf : c.engine.fieldNames[k]? = some c.engine.fieldNames[k] := List.getElem?_eq_getElem hlt
  -- A part is that of a field, which either has its verdict already or waits for its calls.
  rcases Engine.verdict_of_declared c.engine c.shared values hf with
    ⟨-, p, hcalls, hverdict⟩ | ⟨-, hverdict⟩
  · rw [hverdicts, hv, Option.some.injEq] at hverdict
    subst hverdict
    have hanswers : deliveryAt c values k = landings Image.probe p.calls := by
      simp only [deliveryAt, hf, delivery, hcalls]
    rw [hanswers]
    refine .waiting ?_ (resultsOf_landings Image.probe p.calls)
    rw [hcalls]
    exact hgates _ (List.mem_of_getElem? hf)
  · rw [hverdicts, hv, Option.some.injEq] at hverdict
    subst hverdict
    exact .known _

/-- What finishes the parts brings what is delivered for their fields, and does nothing else. -/
theorem settles_of_mem_finishesFrom {place count job : Nat} :
    ∀ event ∈ finishesFrom (deliveryAt c values) place count,
      event.Settles c.engine.fieldNames (delivery c values) job := by
  intro event hevent
  obtain ⟨k, -, rfl⟩ := List.mem_map.mp hevent
  intro _ f hf
  simp only [deliveryAt, hf]

/-- What a command does to judge all fields is a course of the engine in which their validation ends,
with the answers that the calls come to. -/
theorem formEnds_validateFully (hjobs : c.jobs = [])
    (hgates : ∀ f ∈ c.engine.fieldNames,
      ∀ x ∈ c.engine.callsOf c.shared f (values f), ¬ x.WaitsForGate) :
    c.FormEnds values (delivery c values) (validateFully c.engine c.shared values).1
      (validateFully c.engine c.shared values).2 := by
  cases hresult : (c.engine.validateAll c.shared values).2.result with
  | known passed =>
      rw [validateFully_of_known hresult]
      exact .at_once hresult
  | pending verdicts =>
      have hfirst : c.jobs.length = 0 := by rw [hjobs, List.length_nil]
      have hnew : (c.step (.validateAll values)).jobs =
          [{ parts := (Job.ofForm verdicts).parts, whole := true }] := by
        simp only [Course.step, hresult, hjobs]
        rfl
      have hends := endsAtOnce_ofForm hgates hresult
      obtain ⟨hengine, hcourse, hwhole⟩ := hends.run_finishes hnew
      have hmid : ∀ event ∈ finishesFrom (deliveryAt c values) 0 (Job.ofForm verdicts).parts.length,
          event.Settles c.engine.fieldNames (delivery c values) c.jobs.length :=
        settles_of_mem_finishesFrom
      generalize finishesFrom (deliveryAt c values) 0 (Job.ofForm verdicts).parts.length = mid
        at hengine hcourse hwhole hmid
      obtain ⟨passed, hpassed⟩ := Option.isSome_iff_exists.mp
        (hends.isSome_result? c.shared (c.engine.validateAll c.shared values).1)
      have hended : ((c.step (.validateAll values)).run mid).result? c.jobs.length = some passed := by
        rw [hfirst, ← hpassed]
        exact hcourse
      have hdone : ((c.step (.validateAll values)).run mid).isDone c.jobs.length = true := by
        rw [isDone, hended, hfirst, hwhole]
        rfl
      -- Closing the job is the sorting that the command ends with.
      have hclosed := FormEnds.later hresult hmid hended
      rw [step_close_of_done hdone, hengine] at hclosed
      rw [validateFully_of_pending hresult]
      simp only [hpassed, Option.getD_some]
      exact hclosed

end Command

end FieldRules
