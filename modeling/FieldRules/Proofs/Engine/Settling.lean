import FieldRules.Proofs.Engine.Form
import FieldRules.Proofs.Engine.Shape

/-!
# While a validation of all fields settles

A pending validation of all fields is one job with a part for each field. While it settles, other
pending validations may end as well, and other jobs may put the bag in order. `Settling` is what
holds all the while: each field's latest step is the validation of the job, and it is either still
pending or recorded with the answers that were delivered.
-/

namespace FieldRules

namespace Course

/-! ## Events that only settle -/

/-- Nothing happens but the end of a pending validation, with the answers that are delivered if it
is of a certain job, or the end of a job. -/
def Event.Settles (names : List String) (delivered : String → Nat → Except Fault Value)
    (job : Nat) : Event → Prop
  | .finish j part answers => j = job → ∀ f, names[part]? = some f → answers = delivered f
  | .close _ => True
  | _ => False

/-- The event ends a part of a job. -/
def Event.finishes (job part : Nat) : Event → Bool
  | .finish j k _ => j == job && k == part
  | _ => false

/-- A part waits until it is finished. -/
theorem waiting?_step_of_settles {c : Course} {names : List String}
    {delivered : String → Nat → Except Fault Value} {job : Nat} {event : Event}
    (h : event.Settles names delivered job) (j k : Nat) :
    (c.step event).waiting? j k = if event.finishes j k then none else c.waiting? j k := by
  cases event with
  | finish job' part answers =>
      by_cases hsame : j = job' ∧ k = part
      · obtain ⟨rfl, rfl⟩ := hsame
        rw [if_pos (by simp [Event.finishes])]
        cases hp : c.waiting? j k with
        | none =>
            rw [step_finish_of_not_waiting hp]
            exact hp
        | some p =>
            rw [waiting?_step_finish hp]
            exact setLive_self _ _ _ _
      · rw [if_neg (by simp only [Event.finishes, Bool.and_eq_true, beq_iff_eq]; omega)]
        cases hp : c.waiting? job' part with
        | none => rw [step_finish_of_not_waiting hp]
        | some p =>
            rw [waiting?_step_finish hp]
            exact setLive_of_ne _ hsame _
  | close job' =>
      rw [if_neg (by simp [Event.finishes])]
      simp only [step]
      split <;> rfl
  | _ => exact h.elim

theorem waiting?_run_of_settles {c : Course} {names : List String}
    {delivered : String → Nat → Except Fault Value} {job : Nat} {mid : List Event}
    (h : ∀ event ∈ mid, event.Settles names delivered job) (j k : Nat) :
    (c.run mid).waiting? j k = if mid.any (·.finishes j k) then none else c.waiting? j k := by
  induction mid generalizing c with
  | nil => rfl
  | cons event mid ih =>
      obtain ⟨hevent, hmid⟩ := List.forall_mem_cons.mp h
      rw [run_cons, ih hmid, waiting?_step_of_settles hevent, List.any_cons]
      cases event.finishes j k <;> simp

/-! ## The invariant -/

/-- The validation of all fields with some values, in a course `c`, has become a job, and is
settling in the course `d` that came of it. -/
structure Settling (c : Course) (values : String → Value)
    (delivered : String → Nat → Except Fault Value) (d : Course) : Prop where
  consistent : d.Consistent
  setup : Engine.SameSetup c.engine d.engine
  shared : d.shared = c.shared
  /-- The job has one part for each field. -/
  job : ∃ j, d.jobs[c.jobs.length]? = some j ∧ j.whole = true ∧
    j.parts.length = c.engine.fieldNames.length
  /-- Each field is pending as its part of the job, or the part has ended with the results of the
  field's rules and they are recorded. -/
  fields : ∀ k f, c.engine.fieldNames[k]? = some f →
    d.latest f = .pending c.jobs.length k (c.engine.callsOf c.shared f (values f)) ∨
    (d.latest f = .recorded (c.engine.callsOf c.shared f (values f))
        (c.engine.resultsFor c.shared values delivered f) (c.engine.messages c.shared f) ∧
      (d.part? c.jobs.length k).bind Job.endedPart? =
        some ((c.engine.resultsFor c.shared values delivered f).all id))

variable {c d : Course} {values : String → Value} {delivered : String → Nat → Except Fault Value}

theorem latest_step_validateAll (h : c.Consistent) (values : String → Value) {k : Nat} {f : String}
    (hk : c.engine.fieldNames[k]? = some f) :
    (c.step (.validateAll values)).latest f =
      .ofAsked (c.engine.messages c.shared f) c.jobs.length k
        (.calls (c.engine.callsOf c.shared f (values f))) := by
  have hf : f ∈ c.engine.fieldNames := List.mem_of_getElem? hk
  have hplace : c.engine.fieldNames.idxOf f = k := by
    obtain ⟨hlt, hget⟩ := List.getElem?_eq_some_iff.mp hk
    rw [← hget]
    exact h.nodup.idxOf_getElem k hlt
  simp only [step, hf, if_true, hplace, validated, Engine.asked_of_declared c.shared (values f) hf]

theorem Consistent.settling (h : c.Consistent) {verdicts : List Verdict}
    (hpending : (c.engine.validateAll c.shared values).2.result = .pending verdicts)
    (delivered : String → Nat → Except Fault Value) :
    c.Settling values delivered (c.step (.validateAll values)) := by
  obtain ⟨hengine, rfl⟩ := Engine.validateAll_of_pending hpending
  have hjobs : (c.step (.validateAll values)).jobs = c.jobs ++ [.ofForm
      (Engine.validateEach c.shared values c.engine c.engine.fieldNames).2.result] := by
    simp only [Course.step, hpending]
  refine ⟨h.step _, ?_, rfl, ?_, ?_⟩
  · show Engine.SameSetup c.engine (c.engine.validateAll c.shared values).1
    rw [hengine]
    exact Engine.sameSetup_validateEach _ _ _ _
  · rw [hjobs]
    refine ⟨_, List.getElem?_concat_length, rfl, ?_⟩
    simp [Job.ofForm, Engine.length_result_validateEach]
  · intro k f hk
    have hlatest := latest_step_validateAll h values hk
    rcases Engine.verdict_of_declared c.engine c.shared values hk with
      ⟨hcalls, -⟩ | ⟨hcalls, hverdict⟩
    · left
      simp only [hlatest, Latest.ofAsked, hcalls, if_true]
    · have hsettled : c.engine.resultsFor c.shared values delivered f =
          settledResults (c.engine.callsOf c.shared f (values f)) :=
        resultsOf_of_settled hcalls (delivered f)
      right
      constructor
      · simp only [hlatest, Latest.ofAsked, hcalls, Bool.false_eq_true, if_false, hsettled]
      · rw [part?_of_new_job hjobs, Job.ofForm, List.getElem?_map, hverdict, hsettled]
        rfl

/-! ## What ends keeps the invariant -/

theorem waiting?_of_ended {job part : Nat} {ok : Bool}
    (h : (c.part? job part).bind Job.endedPart? = some ok) : c.waiting? job part = none := by
  obtain ⟨old, hold, hended⟩ := Option.bind_eq_some_iff.mp h
  rw [waiting?, hold]
  cases old with
  | known _ => rfl
  | ended _ => rfl
  | waiting _ => simp [Job.endedPart?] at hended
  | running _ _ => simp [Job.endedPart?] at hended

/-- A part that has ended stays as it is when a part that waits is replaced. -/
theorem part?_setPart_of_ended {job part j k : Nat} {p : PendingField} {ok : Bool}
    (hp : d.waiting? job part = some p) (hended : (d.part? j k).bind Job.endedPart? = some ok)
    (new : JobPart) :
    ({ d with jobs := d.setPart job part new }.part? j k).bind Job.endedPart? = some ok := by
  have hother : ¬ (j = job ∧ k = part) := by
    rintro ⟨rfl, rfl⟩
    rw [waiting?_of_ended hended] at hp
    simp at hp
  rw [part?_setPart_of_ne hother, hended]

theorem exists_job_setPart {job n : Nat}
    (h : ∃ j, d.jobs[job]? = some j ∧ j.whole = true ∧ j.parts.length = n) (job' part : Nat)
    (new : JobPart) :
    ∃ j, (d.setPart job' part new)[job]? = some j ∧ j.whole = true ∧ j.parts.length = n := by
  obtain ⟨j, hj, hwhole, hlength⟩ := h
  simp only [setPart, List.getElem?_modify, hj]
  by_cases hsame : job' = job
  · exact ⟨{ j with parts := j.parts.set part new }, by simp [hsame], hwhole, by simp [hlength]⟩
  · exact ⟨j, by simp [hsame], hwhole, hlength⟩

/-- The latest validation of a field ends. If the field is settling, what ends is its part of the
job, since no other validation of it is its latest step. -/
theorem Settling.finish_latest (h : c.Settling values delivered d) {job part : Nat}
    {p : PendingField} {answers : Nat → Except Fault Value} (hp : d.waiting? job part = some p)
    (hlatest : d.latest p.field = .pending job part p.calls)
    (hanswers : job = c.jobs.length → ∀ f, c.engine.fieldNames[part]? = some f →
      answers = delivered f) :
    c.Settling values delivered (d.step (.finish job part answers)) := by
  have hafter := h.consistent.step (.finish job part answers)
  rw [step_finish_latest h.consistent.tracks hp hlatest] at hafter ⊢
  refine ⟨hafter, h.setup.trans rfl, h.shared, exists_job_setPart h.job _ _ _, ?_⟩
  intro k f hk
  by_cases hf : f = p.field
  · subst hf
    right
    rcases h.fields k p.field hk with hpending | ⟨hrecorded, -⟩
    · -- The field is settled now, with the answers that were delivered for it.
      rw [hlatest, Latest.pending.injEq] at hpending
      obtain ⟨rfl, rfl, hcalls⟩ := hpending
      obtain ⟨old, hold, -⟩ := Option.bind_eq_some_iff.mp hp
      have hresults : resultsOf answers p.calls =
          c.engine.resultsFor c.shared values delivered p.field := by
        rw [hanswers rfl p.field hk, hcalls]
        rfl
      constructor
      · refine (Function.update_self _ _ _).trans ?_
        rw [hresults, h.shared, h.setup.messages, hcalls]
      · rw [← hresults]
        exact congrArg (Option.bind · Job.endedPart?) (part?_setPart_self hold _)
    · rw [hlatest] at hrecorded
      simp at hrecorded
  · rcases h.fields k f hk with hpending | ⟨hrecorded, hended⟩
    · left
      rw [← hpending]
      exact Function.update_of_ne hf _ _
    · right
      constructor
      · rw [← hrecorded]
        exact Function.update_of_ne hf _ _
      · exact part?_setPart_of_ended hp hended _

/-- A validation that is not the latest of its field ends. So it is no part of the job that is still
pending. -/
theorem Settling.finish_older (h : c.Settling values delivered d) {job part : Nat}
    {p : PendingField} {answers : Nat → Except Fault Value} (hp : d.waiting? job part = some p)
    (hlatest : d.latest p.field ≠ .pending job part p.calls) :
    c.Settling values delivered (d.step (.finish job part answers)) := by
  have hafter := h.consistent.step (.finish job part answers)
  rw [step_finish_older h.consistent.tracks hp hlatest] at hafter ⊢
  refine ⟨hafter, h.setup, h.shared, exists_job_setPart h.job _ _ _, ?_⟩
  intro k f hk
  rcases h.fields k f hk with hpending | ⟨hrecorded, hended⟩
  · exact Or.inl hpending
  · exact Or.inr ⟨hrecorded, part?_setPart_of_ended hp hended _⟩

theorem Settling.step (h : c.Settling values delivered d) {event : Event}
    (hevent : event.Settles c.engine.fieldNames delivered c.jobs.length) :
    c.Settling values delivered (d.step event) := by
  cases event with
  | finish job part answers =>
      cases hp : d.waiting? job part with
      | none =>
          rw [step_finish_of_not_waiting hp]
          exact h
      | some p =>
          by_cases hlatest : d.latest p.field = .pending job part p.calls
          · exact h.finish_latest hp hlatest hevent
          · exact h.finish_older hp hlatest
  | close job =>
      have hafter := h.consistent.step (.close job)
      by_cases hdone : d.isDone job = true
      · rw [step_close_of_done hdone] at hafter ⊢
        exact ⟨hafter, h.setup.trans rfl, h.shared, h.job, h.fields⟩
      · rw [step_close_of_not_done hdone]
        exact h
  | _ => exact hevent.elim

theorem Settling.run (h : c.Settling values delivered d) {mid : List Event}
    (hmid : ∀ event ∈ mid, event.Settles c.engine.fieldNames delivered c.jobs.length) :
    c.Settling values delivered (d.run mid) := by
  induction mid generalizing d with
  | nil => exact h
  | cons event mid ih =>
      obtain ⟨hevent, hrest⟩ := List.forall_mem_cons.mp hmid
      exact ih (h.step hevent) hrest

/-! ## The end -/

theorem mapM_endedPart?_eq_some {parts : List JobPart} {passed : List Bool} :
    parts.mapM Job.endedPart? = some passed ↔ parts.map Job.endedPart? = passed.map some := by
  rw [← mapM_eq_some_iff (f := id) (fun _ _ => Iff.rfl), List.mapM_map]
  rfl

/-- A field is settled once its part of the job does not wait. -/
theorem Settling.recorded (h : c.Settling values delivered d) {k : Nat} {f : String}
    (hk : c.engine.fieldNames[k]? = some f) (hwaiting : d.waiting? c.jobs.length k = none) :
    d.latest f = .recorded (c.engine.callsOf c.shared f (values f))
        (c.engine.resultsFor c.shared values delivered f) (c.engine.messages c.shared f) ∧
      (d.part? c.jobs.length k).bind Job.endedPart? =
        some ((c.engine.resultsFor c.shared values delivered f).all id) := by
  rcases h.fields k f hk with hpending | hrecorded
  · obtain ⟨p, hp, -⟩ := h.consistent.tracks.current f _ _ _ hpending
    have hp' : d.waiting? c.jobs.length k = some p := hp
    rw [hwaiting] at hp'
    simp at hp'
  · exact hrecorded

/-- The job has its result once none of its parts waits, and the result tells whether every rule of
every field passed. -/
theorem Settling.result?_eq_some_iff (h : c.Settling values delivered d) {passed : Bool} :
    d.result? c.jobs.length = some passed ↔
      (∀ k, d.waiting? c.jobs.length k = none) ∧
        passed = c.engine.fieldNames.all fun f =>
          (c.engine.resultsFor c.shared values delivered f).all id := by
  obtain ⟨j, hj, -, hlength⟩ := h.job
  have hpart : ∀ k, d.part? c.jobs.length k = j.parts[k]? := by
    intro k
    rw [part?, hj]
    rfl
  have hresult : d.result? c.jobs.length =
      (j.parts.mapM Job.endedPart?).map fun passed => passed.all id := by
    rw [result?, hj]
    rfl
  -- Once nothing waits, the parts have ended with the results of the fields.
  have hended : (∀ k, d.waiting? c.jobs.length k = none) →
      j.parts.map Job.endedPart? = (c.engine.fieldNames.map fun f =>
        (c.engine.resultsFor c.shared values delivered f).all id).map some := by
    intro hnone
    apply List.ext_getElem?
    intro k
    rw [List.map_map, List.getElem?_map, List.getElem?_map, ← hpart]
    cases hk : c.engine.fieldNames[k]? with
    | none =>
        rw [Option.map_none, Option.map_eq_none_iff, hpart, List.getElem?_eq_none_iff, hlength]
        exact List.getElem?_eq_none_iff.mp hk
    | some f =>
        obtain ⟨part, hsome, hresult⟩ :=
          Option.bind_eq_some_iff.mp (h.recorded hk (hnone k)).2
        rw [hsome, Option.map_some, hresult]
        rfl
  rw [hresult]
  constructor
  · intro hsome
    obtain ⟨results, hresults, hpassed⟩ := Option.map_eq_some_iff.mp hsome
    have hnone : ∀ k, d.waiting? c.jobs.length k = none := by
      intro k
      cases hk : j.parts[k]? with
      | none => rw [waiting?, hpart, hk, Option.bind_none]
      | some part =>
          have hended := congrArg (·[k]?) (mapM_endedPart?_eq_some.mp hresults)
          simp only [List.getElem?_map, hk, Option.map_some] at hended
          obtain ⟨ok, -, hok⟩ := Option.map_eq_some_iff.mp hended.symm
          exact waiting?_of_ended (by rw [hpart, hk, Option.bind_some, hok])
    rw [mapM_endedPart?_eq_some.mpr (hended hnone), Option.some.injEq] at hresults
    refine ⟨hnone, ?_⟩
    rw [← hpassed, ← hresults, List.all_map]
    rfl
  · rintro ⟨hnone, rfl⟩
    rw [mapM_endedPart?_eq_some.mpr (hended hnone), Option.map_some, List.all_map]
    rfl

end Course

end FieldRules
