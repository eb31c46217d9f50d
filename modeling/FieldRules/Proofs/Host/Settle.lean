import FieldRules.Proofs.Engine.Joining
import FieldRules.Proofs.Host.Follows

/-!
# Jobs and courses

A job of a host goes on by events of its engine's course: one event for each part that ends
(`endParts_run`), with the answers that were delivered by then, and one when it is closed.
-/

namespace FieldRules

/-! ## Answers -/

/-- What calls come to when all they wait for has come are results for some answers. -/
theorem exists_resultsOf_of_settle? {gates : Gates} {probe : Probe} {calls : List RuleCall}
    {passed : List Bool} (h : settle? gates (startAll probe calls).result = some passed) :
    ∃ delivered, resultsOf delivered calls = passed := by
  induction calls generalizing passed with
  | nil =>
      have hnil : passed = [] := by simpa [settle?_eq_mapM, startAll, eq_comm] using h
      exact ⟨fun _ => .ok .null, by simp [resultsOf, hnil]⟩
  | cons c calls ih =>
      have hcons : settle? gates (startAll probe (c :: calls)).result =
          (Progress.passed? gates (c.outcome.start probe).result).bind fun b =>
            (settle? gates (startAll probe calls).result).bind fun bs => some (b :: bs) := by
        simp only [settle?_eq_mapM, startAll, List.map_cons, List.mapM_cons]
        rfl
      rw [hcons, Option.bind_eq_some_iff] at h
      obtain ⟨b, hb, h⟩ := h
      obtain ⟨bs, hbs, h⟩ := Option.bind_eq_some_iff.mp h
      obtain ⟨delivered, hdelivered⟩ := ih hbs
      refine ⟨fun i => if i = 0 then .ok (.bool b) else delivered (i - 1), ?_⟩
      -- A call that was known keeps its result whatever is delivered for it.
      have hfirst : c.passedAs (.ok (.bool b)) = b := by
        unfold RuleCall.passedAs
        cases hout : c.outcome with
        | settled passed =>
            rw [hout] at hb
            simpa [Outcome.start, Progress.passed?] using hb
        | pending d => rfl
      rw [resultsOf, List.mapIdx_cons, ← Option.some.inj h, ← hdelivered]
      simp [hfirst, resultsOf]

namespace Host

variable {h h' : Host}

/-! ## One job -/

/-- What becomes of one job and its engine is a run of the engine's course. -/
theorem leads_of_job {number : Nat} {a a' : Awaited} {e e' : Engine}
    (ha : h.jobs[number]? = some a) (he : h.engines[a.engine]? = some e)
    (hengines : h'.engines = h.engines.set a.engine e') (hjobs : h'.jobs = h.jobs.set number a')
    (hshared : h'.shared = h.shared) (hsame : a'.engine = a.engine)
    (hstarted : ∀ p progress, .running p progress ∈ a'.job.parts →
      ∃ probe, progress = (startAll probe p.calls).result)
    (hrun : ∀ (c : Course) (before after : List Job), c.engine = e →
      c.shared = h.shared → c.jobs = before ++ a.job.plain :: after →
      ∃ events, (c.run events).engine = e' ∧ (c.run events).shared = h.shared ∧
        (c.run events).jobs = before ++ a'.job.plain :: after) : h.Leads h' := by
  have hlt : a.engine < h.engines.length := (List.getElem?_eq_some_iff.mp he).1
  have hlength : h'.engines.length = h.engines.length := by rw [hengines, List.length_set]
  obtain ⟨hnumber, hget⟩ := List.getElem?_eq_some_iff.mp ha
  have hold : h.jobs = h.jobs.take number ++ a :: h.jobs.drop (number + 1) := by
    rw [← hget, List.getElem_cons_drop, List.take_append_drop]
  have hnew : h'.jobs = h.jobs.take number ++ a' :: h.jobs.drop (number + 1) := by
    rw [hjobs, List.set_eq_take_append_cons_drop, if_pos hnumber]
  intro hsound
  refine ⟨?_, hlength, ?_⟩
  · constructor
    · intro x hx
      rw [hlength]
      rw [hjobs] at hx
      rcases List.mem_or_eq_of_mem_set hx with hx | rfl
      · exact hsound.owned x hx
      · rw [hsame]
        exact hlt
    · intro x hx p progress hpart
      rw [hjobs] at hx
      rcases List.mem_or_eq_of_mem_set hx with hx | rfl
      · exact hsound.started x hx p progress hpart
      · exact hstarted p progress hpart
  · intro n c hfollows
    by_cases hn : a.engine = n
    · -- The place of the job among those of its engine is where the course has it.
      subst hn
      have hengine : c.engine = e := Option.some.inj (hfollows.engine.symm.trans he)
      have hcourse := hfollows.jobs
      rw [jobsOf, hold, List.filter_append, List.filter_cons_of_pos (by simp), List.map_append,
        List.map_cons] at hcourse
      obtain ⟨events, hafter, hsame', hafterjobs⟩ :=
        hrun c _ _ hengine hfollows.shared.symm hcourse.symm
      refine ⟨events, ?_, hshared.trans hsame'.symm, ?_⟩
      · rw [hengines, List.getElem?_set_self hlt, hafter]
      · rw [hafterjobs, jobsOf, hnew, List.filter_append, List.filter_cons_of_pos (by simp [hsame]),
          List.map_append, List.map_cons]
    · refine ⟨[], ?_, hshared.trans hfollows.shared, ?_⟩
      · rw [hengines, List.getElem?_set_ne hn]
        exact hfollows.engine
      · have hcourse := hfollows.jobs
        rw [jobsOf, hold, List.filter_append, List.filter_cons_of_neg (by simpa using hn)]
          at hcourse
        rw [jobsOf, hnew, List.filter_append, List.filter_cons_of_neg (by simpa [hsame] using hn)]
        exact hcourse

/-! ## Starting -/

theorem plain_start (j : Job) (probe : Probe) : (j.start probe).result.plain = j.plain := by
  simp only [Job.start, Job.plain, List.map_map, Job.mk.injEq, and_true]
  apply List.map_congr_left
  intro part _
  cases part <;> rfl

/-- What runs in a job that was started was started then, or ran before. -/
theorem running_of_mem_start {j : Job} {probe : Probe} {p : PendingField} {progress : List Progress}
    (h : .running p progress ∈ (j.start probe).result.parts) :
    progress = (startAll probe p.calls).result ∨ .running p progress ∈ j.parts := by
  simp only [Job.start, List.map_map, List.mem_map, Function.comp_apply] at h
  obtain ⟨part, hpart, h⟩ := h
  cases part with
  | known passed => simp [Job.startPart] at h
  | ended passed => simp [Job.startPart] at h
  | waiting q =>
      simp only [Job.startPart, JobPart.running.injEq] at h
      obtain ⟨rfl, rfl⟩ := h
      exact Or.inl rfl
  | running q progress' =>
      simp only [Job.startPart, JobPart.running.injEq] at h
      obtain ⟨rfl, rfl⟩ := h
      exact Or.inr hpart

/-- A host that starts jobs does nothing to their engines. -/
theorem leads_startJob (h : Host) (number : Nat) : h.Leads (h.startJob number).result := by
  intro hsound
  cases ha : h.jobs[number]? with
  | none =>
      have hsame : (h.startJob number).result = h := by simp only [startJob, ha]
      rw [hsame]
      exact Leads.refl h hsound
  | some a =>
      by_cases hstarted : a.job.started = true
      · have hsame : (h.startJob number).result = h := by simp only [startJob, ha, hstarted, if_true]
        rw [hsame]
        exact Leads.refl h hsound
      · have hmem : a ∈ h.jobs := List.mem_of_getElem? ha
        have hlt := hsound.owned a hmem
        have hjobs : (h.startJob number).result.jobs =
            h.jobs.set number { a with job := (a.job.start h.probe).result } := by
          simp only [startJob, ha, hstarted, Bool.false_eq_true, if_false]
        have hengines : (h.startJob number).result.engines = h.engines := by
          simp only [startJob, ha, hstarted, Bool.false_eq_true, if_false]
        have hshared : (h.startJob number).result.shared = h.shared := by
          simp only [startJob, ha, hstarted, Bool.false_eq_true, if_false]
        rw [← List.set_getElem_self hlt] at hengines
        refine leads_of_job ha (List.getElem?_eq_getElem hlt) hengines hjobs hshared rfl ?_ ?_ hsound
        · intro p progress hpart
          rcases running_of_mem_start hpart with hnew | hold
          · exact ⟨h.probe, hnew⟩
          · exact hsound.started a hmem p progress hold
        · intro c before after hengine hshared hjobs
          exact ⟨[], hengine, hshared, by rw [plain_start]; exact hjobs⟩

theorem leads_startEach (h : Host) (numbers : List Nat) : h.Leads (h.startEach numbers).1 := by
  induction numbers generalizing h with
  | nil => exact Leads.refl h
  | cons n ns ih =>
      rw [startEach_cons_fst]
      exact (leads_startJob h n).trans (ih _)

/-! ## Going on -/

theorem modify_length_append {α : Type} (l r : List α) (a : α) (f : α → α) :
    (l ++ a :: r).modify l.length f = l ++ f a :: r := by
  induction l with
  | nil => rfl
  | cons b l ih => simp [ih]

/-- A part that waits ends by the event that finishes it. -/
theorem step_finish_waiting {c : Course} {before after : List Job} {pre rest : List JobPart}
    {whole : Bool} {p : PendingField} (hjobs : c.jobs = before ++
      { parts := pre ++ .waiting p :: rest, whole } :: after)
    (delivered : Nat → Except Fault Value) :
    let d := c.step (.finish before.length pre.length delivered)
    d.engine = (c.engine.finish c.shared p (resultsOf delivered p.calls)).1 ∧
      d.shared = c.shared ∧
      d.jobs = before ++
        { parts := pre ++
            .ended (c.engine.finish c.shared p (resultsOf delivered p.calls)).2 :: rest,
          whole } :: after := by
  have hwaiting : c.waiting? before.length pre.length = some p := by
    simp [Course.waiting?, Course.part?, hjobs, JobPart.pending?]
  refine ⟨?_, ?_, ?_⟩
  · simp only [Course.step, hwaiting]
  · simp only [Course.step, hwaiting]
  · simp only [Course.step, hwaiting, Course.setPart, hjobs, modify_length_append]
    simp

/-- A part ends by an event. -/
theorem finish_run {c : Course} {before after : List Job} {pre rest : List JobPart} {whole : Bool}
    {p : PendingField} (hjobs : c.jobs = before ++
      { parts := pre ++ .waiting p :: rest, whole } :: after)
    (delivered : Nat → Except Fault Value) :
    ∃ event, (c.step event).engine = (c.engine.finish c.shared p (resultsOf delivered p.calls)).1 ∧
      (c.step event).shared = c.shared ∧
      (c.step event).jobs = before ++
        { parts := pre ++
            .ended (c.engine.finish c.shared p (resultsOf delivered p.calls)).2 :: rest,
          whole } :: after :=
  ⟨_, step_finish_waiting hjobs delivered⟩

/-- What becomes of a part when the answers come is no event or one. -/
theorem endPart_run (gates : Gates) {c : Course} {before after : List Job}
    {pre rest : List JobPart} {whole : Bool} {part : JobPart}
    (hstarted : ∀ p progress, part = .running p progress →
      ∃ probe, progress = (startAll probe p.calls).result)
    (hjobs : c.jobs = before ++ { parts := pre ++ part.plain :: rest, whole } :: after) :
    ∃ events, (c.run events).engine = (Job.endPart gates c.shared c.engine part).1 ∧
      (c.run events).shared = c.shared ∧
      (c.run events).jobs = before ++
        { parts := pre ++ (Job.endPart gates c.shared c.engine part).2.plain :: rest,
          whole } :: after := by
  cases part with
  | known passed => exact ⟨[], rfl, rfl, hjobs⟩
  | ended passed => exact ⟨[], rfl, rfl, hjobs⟩
  | waiting p => exact ⟨[], rfl, rfl, hjobs⟩
  | running p progress =>
      cases hsettle : settle? gates progress with
      | none =>
          refine ⟨[], ?_, rfl, ?_⟩
          · simp only [Job.endPart, hsettle]
            rfl
          · simp only [Job.endPart, hsettle]
            exact hjobs
      | some passed =>
          obtain ⟨probe, rfl⟩ := hstarted p progress rfl
          obtain ⟨delivered, rfl⟩ := exists_resultsOf_of_settle? hsettle
          obtain ⟨event, hengine, hshared, hafter⟩ := finish_run hjobs delivered
          refine ⟨[event], ?_, hshared, ?_⟩
          · simp only [Job.endPart, hsettle]
            exact hengine
          · simp only [Job.endPart, hsettle]
            exact hafter

/-- What becomes of the parts of a job when answers come is a list of events. -/
theorem endParts_run (gates : Gates) {before after : List Job} {whole : Bool}
    (parts : List JobPart)
    (hstarted : ∀ p progress, .running p progress ∈ parts →
      ∃ probe, progress = (startAll probe p.calls).result)
    (pre : List JobPart) (c : Course)
    (hjobs : c.jobs = before ++ { parts := pre ++ parts.map JobPart.plain, whole } :: after) :
    ∃ events, (c.run events).engine = (Job.endParts gates c.shared c.engine parts).1 ∧
      (c.run events).shared = c.shared ∧
      (c.run events).jobs = before ++
        { parts := pre ++ (Job.endParts gates c.shared c.engine parts).2.map JobPart.plain,
          whole } :: after := by
  induction parts generalizing pre c with
  | nil => exact ⟨[], rfl, rfl, hjobs⟩
  | cons part rest ih =>
      obtain ⟨events, hengine, hshared, hafter⟩ := endPart_run gates
        (fun p progress hpart => hstarted p progress (by simp [hpart])) hjobs
      -- The part stays where it is, in front of those that are left.
      obtain ⟨more, hengine', hshared', hafter'⟩ := ih
        (fun p progress hpart => hstarted p progress (List.mem_cons_of_mem _ hpart))
        (pre ++ [(Job.endPart gates c.shared c.engine part).2.plain]) (c.run events)
        (by rw [hafter]; simp)
      refine ⟨events ++ more, ?_, ?_, ?_⟩
      · rw [Course.run_append, hengine', hengine, hshared]
        rfl
      · rw [Course.run_append, hshared', hshared]
      · rw [Course.run_append, hafter', hengine, hshared]
        simp [Job.endParts]

/-- What still runs after some parts ended ran before. -/
theorem running_of_mem_endParts {gates : Gates} {shared : Shared} {parts : List JobPart}
    {e : Engine} {p : PendingField} {progress : List Progress}
    (h : .running p progress ∈ (Job.endParts gates shared e parts).2) :
    .running p progress ∈ parts := by
  induction parts generalizing e with
  | nil => simp [Job.endParts] at h
  | cons part rest ih =>
      simp only [Job.endParts, List.mem_cons] at h
      rcases h with hpart | hrest
      · cases part with
        | known passed => simp [Job.endPart] at hpart
        | ended passed => simp [Job.endPart] at hpart
        | waiting q => simp [Job.endPart] at hpart
        | running q progress' =>
            simp only [Job.endPart] at hpart
            split at hpart
            · simp [hpart]
            · simp at hpart
      · exact List.mem_cons_of_mem _ (ih hrest)

theorem leads_advanceJob (h : Host) (number : Nat) : h.Leads (h.advanceJob number) := by
  intro hsound
  cases ha : h.jobs[number]? with
  | none =>
      have hsame : h.advanceJob number = h := by simp only [advanceJob, ha]
      rw [hsame]
      exact Leads.refl h hsound
  | some a =>
      have hmem : a ∈ h.jobs := List.mem_of_getElem? ha
      have hlt : a.engine < h.engines.length := hsound.owned a hmem
      have he : h.engines[a.engine]? = some h.engines[a.engine] := List.getElem?_eq_getElem hlt
      have hstep : h.advanceJob number =
          { h with
            engines := h.engines.set a.engine
              (Job.endParts h.gates h.shared h.engines[a.engine] a.job.parts).1
            jobs := h.jobs.set number { a with job := { a.job with
              parts := (Job.endParts h.gates h.shared h.engines[a.engine] a.job.parts).2 } } } := by
        simp only [advanceJob, ha, he, Job.advance]
      rw [hstep]
      refine leads_of_job ha he rfl rfl rfl rfl ?_ ?_ hsound
      · intro p progress hpart
        exact hsound.started a hmem p progress (running_of_mem_endParts hpart)
      · intro c before after hengine hshared hjobs
        obtain ⟨events, hengine', hshared', hjobs'⟩ := endParts_run h.gates a.job.parts
          (fun p progress => hsound.started a hmem p progress) [] c hjobs
        rw [hengine, hshared] at hengine' hjobs'
        exact ⟨events, hengine', hshared'.trans hshared, hjobs'⟩

/-! ## Closing -/

/-- A part has ended in the host exactly if it has in the course. -/
theorem endedPart?_comp_plain : Job.endedPart? ∘ JobPart.plain = Job.endedPart? := by
  funext part
  cases part <;> rfl

/-- A job of the host that has its result is done in the course if it is of all fields. -/
theorem isDone_of_result? {c : Course} {before after : List Job} {j : Job} {passed : Bool}
    (hjobs : c.jobs = before ++ j.plain :: after) (hwhole : j.whole = true)
    (hresult : j.result? = some passed) : c.isDone before.length = true := by
  have hjob : c.jobs[before.length]? = some j.plain := by simp [hjobs]
  have hparts : j.plain.parts.mapM Job.endedPart? = j.parts.mapM Job.endedPart? := by
    simp only [Job.plain, List.mapM_map, endedPart?_comp_plain]
  unfold Job.result? at hresult
  rw [Job.results?_eq_mapM] at hresult
  split at hresult
  · unfold Course.isDone Course.result?
    rw [hjob, Option.any_some, Option.bind_some, hparts, hresult]
    simpa [Job.plain] using hwhole
  · simp at hresult

theorem leads_closeJob (h : Host) (number : Nat) : h.Leads (h.closeJob number).1 := by
  intro hsound
  cases ha : h.jobs[number]? with
  | none =>
      have hsame : (h.closeJob number).1 = h := by simp only [closeJob, ha]
      rw [hsame]
      exact Leads.refl h hsound
  | some a =>
      have hmem : a ∈ h.jobs := List.mem_of_getElem? ha
      have hlt : a.engine < h.engines.length := hsound.owned a hmem
      have he : h.engines[a.engine]? = some h.engines[a.engine] := List.getElem?_eq_getElem hlt
      cases hclosed : a.closed with
      | true =>
          have hsame : (h.closeJob number).1 = h := by simp only [closeJob, ha, hclosed, if_true]
          rw [hsame]
          exact Leads.refl h hsound
      | false =>
          cases hresult : a.job.result? with
          | none =>
              have hsame : (h.closeJob number).1 = h := by
                simp only [closeJob, ha, hclosed, hresult, Bool.false_eq_true, if_false]
              rw [hsame]
              exact Leads.refl h hsound
          | some passed =>
              cases hwhole : a.job.whole with
              | false =>
                  have hstep : (h.closeJob number).1 =
                      { h with jobs := h.jobs.set number { a with closed := true } } := by
                    simp only [closeJob, ha, hclosed, hresult, hwhole, Bool.false_eq_true, if_false]
                  rw [hstep]
                  refine leads_of_job ha he (List.set_getElem_self hlt).symm rfl rfl rfl
                    (fun p progress => hsound.started a hmem p progress) ?_ hsound
                  intro c before after hengine hshared hjobs
                  exact ⟨[], hengine, hshared, hjobs⟩
              | true =>
                  have hstep : (h.closeJob number).1 =
                      { h with
                        engines := h.engines.set a.engine h.engines[a.engine].sortBag
                        jobs := h.jobs.set number { a with closed := true } } := by
                    simp only [closeJob, ha, hclosed, hresult, hwhole, Bool.false_eq_true, if_false,
                      if_true, List.modify_eq_set_get _ hlt, List.get_eq_getElem]
                  rw [hstep]
                  refine leads_of_job ha he rfl rfl rfl rfl
                    (fun p progress => hsound.started a hmem p progress) ?_ hsound
                  intro c before after hengine hshared hjobs
                  have hdone := isDone_of_result? hjobs hwhole hresult
                  refine ⟨[.close before.length], ?_, ?_, ?_⟩
                  · rw [Course.run_cons, Course.step_close_of_done hdone, ← hengine]
                    rfl
                  · rw [Course.run_cons, Course.step_close_of_done hdone]
                    exact hshared
                  · rw [Course.run_cons, Course.step_close_of_done hdone]
                    exact hjobs

/-! ## Settling -/

theorem leads_closeJobs (h : Host) (numbers : List Nat) : h.Leads (h.closeJobs numbers).1 := by
  induction numbers generalizing h with
  | nil => exact Leads.refl h
  | cons n ns ih => exact (leads_closeJob h n).trans (ih (h.closeJob n).1)

theorem leads_advance (h : Host) (numbers : List Nat) : h.Leads (numbers.foldl advanceJob h) := by
  induction numbers generalizing h with
  | nil => exact Leads.refl h
  | cons n ns ih => exact (leads_advanceJob h n).trans (ih (h.advanceJob n))

/-- Letting all started jobs go on is a list of events for every engine. -/
theorem leads_settle (h : Host) : h.Leads h.settle.1 :=
  (leads_advance h h.started).trans (leads_closeJobs _ _)

end Host

end FieldRules
