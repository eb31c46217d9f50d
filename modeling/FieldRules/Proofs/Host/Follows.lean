import FieldRules.Proofs.Host.Frame

/-!
# Hosts and courses

An engine of a host follows a course if it is where the course has come to. What a host does to one
of its engines is an event of that engine's course (`leads_of_event`) and of no other; what it does
to the catalog and the dictionary is an event of every course (`leads_of_share`).

A course knows less than a host of what a part of a job waits for. `plain` forgets the rest.
-/

namespace FieldRules

/-- The part, apart from what is known of its calls. -/
def JobPart.plain : JobPart → JobPart
  | .running p _ => .waiting p
  | part => part

/-- The job, apart from what is known of its calls. -/
def Job.plain (j : Job) : Job where
  parts := j.parts.map JobPart.plain
  whole := j.whole

namespace Host

/-- The jobs of an engine in order. -/
def jobsOf (h : Host) (n : Nat) : List Job :=
  (h.jobs.filter (·.engine == n)).map fun a => a.job.plain

/-- An engine of the host is where a course has come to. -/
structure Follows (h : Host) (n : Nat) (c : Course) : Prop where
  engine : h.engines[n]? = some c.engine
  shared : h.shared = c.shared
  jobs : h.jobsOf n = c.jobs

/-- Every job belongs to an engine, and what a part waits for was started. -/
structure Sound (h : Host) : Prop where
  owned : ∀ a ∈ h.jobs, a.engine < h.engines.length
  started : ∀ a ∈ h.jobs, ∀ p progress, .running p progress ∈ a.job.parts →
    ∃ probe, progress = (startAll probe p.calls).result

/-- The host is sound, and each of its engines has come through a course. -/
structure Followed (h : Host) : Prop where
  sound : h.Sound
  follows : ∀ n < h.engines.length, ∃ shared locale attributes events,
    h.Follows n ((Course.fresh shared locale attributes).run events)

/-- From one host to another no engine is added, and the course of each goes on. -/
def Leads (h h' : Host) : Prop :=
  h.Sound → h'.Sound ∧ h'.engines.length = h.engines.length ∧
    ∀ n c, h.Follows n c → ∃ events, h'.Follows n (c.run events)

variable {h h' h'' : Host}

theorem Leads.refl (h : Host) : h.Leads h :=
  fun hsound => ⟨hsound, rfl, fun _ _ hfollows => ⟨[], hfollows⟩⟩

theorem Leads.trans (hl : h.Leads h') (hl' : h'.Leads h'') : h.Leads h'' := by
  intro hsound
  obtain ⟨hsound', hlength, hruns⟩ := hl hsound
  obtain ⟨hsound'', hlength', hruns'⟩ := hl' hsound'
  refine ⟨hsound'', hlength'.trans hlength, ?_⟩
  intro n c hfollows
  obtain ⟨events, hfollows'⟩ := hruns n c hfollows
  obtain ⟨more, hfollows''⟩ := hruns' n _ hfollows'
  exact ⟨events ++ more, by rwa [Course.run_append]⟩

theorem Followed.of_leads (hf : h.Followed) (hl : h.Leads h') : h'.Followed := by
  obtain ⟨hsound, hlength, hruns⟩ := hl hf.sound
  refine ⟨hsound, ?_⟩
  intro n hn
  rw [hlength] at hn
  obtain ⟨shared, locale, attributes, events, hfollows⟩ := hf.follows n hn
  obtain ⟨more, hfollows'⟩ := hruns n _ hfollows
  exact ⟨shared, locale, attributes, events ++ more, by rwa [Course.run_append]⟩

/-! ## What all engines share -/

/-- A change of what engines share is an event of every course. -/
theorem leads_of_share (hengines : h'.engines = h.engines) (hjobs : h'.jobs = h.jobs) :
    h.Leads h' := by
  intro hsound
  refine ⟨⟨?_, ?_⟩, by rw [hengines], ?_⟩
  · rw [hengines, hjobs]
    exact hsound.owned
  · rw [hjobs]
    exact hsound.started
  · intro n c hfollows
    refine ⟨[.share h'.shared], ?_, rfl, ?_⟩
    · rw [hengines]
      exact hfollows.engine
    · rw [jobsOf, hjobs]
      exact hfollows.jobs

/-! ## One engine -/

/-- What is done to one engine is an event of its course. The jobs that it adds are new. -/
theorem leads_of_event {n : Nat} {e e' : Engine} (hn : h.engines[n]? = some e)
    (event : Course.Event) (js : List Job) (hengines : h'.engines = h.engines.set n e')
    (hjobs : h'.jobs = h.jobs ++ js.map fun job => { engine := n, job })
    (hshared : h'.shared = h.shared)
    (hstep : ∀ c : Course, c.engine = e → c.shared = h.shared → (c.step event).engine = e' ∧
      (c.step event).shared = h.shared ∧ (c.step event).jobs = c.jobs ++ js)
    (hplain : ∀ j ∈ js, j.plain = j) : h.Leads h' := by
  have hlt : n < h.engines.length := (List.getElem?_eq_some_iff.mp hn).1
  have hlength : h'.engines.length = h.engines.length := by rw [hengines, List.length_set]
  intro hsound
  refine ⟨?_, hlength, ?_⟩
  · constructor
    · intro a ha
      rw [hjobs, List.mem_append, List.mem_map] at ha
      rw [hlength]
      rcases ha with hold | ⟨j, -, rfl⟩
      · exact hsound.owned a hold
      · exact hlt
    · intro a ha p progress hpart
      rw [hjobs, List.mem_append, List.mem_map] at ha
      rcases ha with hold | ⟨j, hj, rfl⟩
      · exact hsound.started a hold p progress hpart
      · -- A new part was not started, so it does not run.
        have hparts : j.parts.map JobPart.plain = j.parts := congrArg Job.parts (hplain j hj)
        rw [← hparts, List.mem_map] at hpart
        obtain ⟨part, -, hpart⟩ := hpart
        cases part <;> simp [JobPart.plain] at hpart
  · intro m c hfollows
    by_cases hm : m = n
    · subst hm
      have hengine : c.engine = e := Option.some.inj (hfollows.engine.symm.trans hn)
      obtain ⟨hafter, hsame, hnew⟩ := hstep c hengine hfollows.shared.symm
      refine ⟨[event], ?_, hshared.trans hsame.symm, ?_⟩
      · rw [hengines, List.getElem?_set_self hlt, ← hafter]
        rfl
      · show h'.jobsOf m = (c.step event).jobs
        have hjs : js.map (fun j => j.plain) = js := by
          conv_rhs => rw [← List.map_id js]
          exact List.map_congr_left hplain
        rw [hnew, ← hfollows.jobs, jobsOf, jobsOf, hjobs, List.filter_append, List.map_append,
          List.filter_map, List.map_map]
        simp [Function.comp_def, hjs]
    · have hothers : (js.map fun job => ({ engine := n, job } : Awaited)).filter (·.engine == m) =
          [] := by
        rw [List.filter_map]
        simp [Function.comp_def, Ne.symm hm]
      refine ⟨[], ?_, hshared.trans hfollows.shared, ?_⟩
      · rw [hengines, List.getElem?_set_ne (Ne.symm hm)]
        exact hfollows.engine
      · rw [jobsOf, hjobs, List.filter_append, hothers, List.append_nil]
        exact hfollows.jobs

theorem plain_of_mem_fieldJobs {r : Except Fault Verdict} : ∀ j ∈ fieldJobs r, j.plain = j := by
  intro j hj
  unfold fieldJobs at hj
  split at hj
  · rw [List.mem_singleton.mp hj]
    rfl
  · simp at hj

theorem plain_of_mem_formJobs {r : FormVerdict} : ∀ j ∈ formJobs r, j.plain = j := by
  intro j hj
  cases r with
  | known passed => simp [formJobs] at hj
  | pending verdicts =>
      rw [List.mem_singleton.mp hj]
      simp only [Job.ofForm, Job.plain, List.map_map, Job.mk.injEq, and_true]
      apply List.map_congr_left
      intro v _
      cases v <;> rfl

theorem jobs_step_validate (c : Course) (field : String) (value extra : Value) :
    (c.step (.validate field value extra)).jobs =
      c.jobs ++ fieldJobs (c.engine.validate c.shared field value extra).2.result := by
  simp only [Course.step]
  split <;> simp_all [fieldJobs]

theorem jobs_step_validateAll (c : Course) (values : String → Value) :
    (c.step (.validateAll values)).jobs =
      c.jobs ++ formJobs (c.engine.validateAll c.shared values).2.result := by
  simp only [Course.step]
  split <;> simp_all [formJobs]

/-- A step of an engine that does not edit its bag is an event of its course, or none. -/
theorem leads_engineStep {n : Nat} {e : Engine} (hn : h.engines[n]? = some e) {s : EngineStep}
    (hbag : ∀ b, s = .bag b → ∀ bag : Bag, (bag.step b).1 = bag) :
    h.Leads (h.engineStep n e s).1 := by
  cases s with
  | attach field text =>
      refine leads_of_event hn (.attach field (Rule.readAll text)) [] rfl
        (List.append_nil _).symm rfl ?_ (by simp)
      rintro c rfl hc
      exact ⟨rfl, hc, (List.append_nil _).symm⟩
  | detach field =>
      refine leads_of_event hn (.detach field) [] rfl (List.append_nil _).symm rfl ?_ (by simp)
      rintro c rfl hc
      exact ⟨rfl, hc, (List.append_nil _).symm⟩
  | setLocale locale =>
      refine leads_of_event hn (.setLocale locale) [] rfl (List.append_nil _).symm rfl ?_ (by simp)
      rintro c rfl hc
      exact ⟨rfl, hc, (List.append_nil _).symm⟩
  | extend name d =>
      refine leads_of_event hn (.extend name (h.supplied d)) [] rfl (List.append_nil _).symm rfl ?_
        (by simp)
      rintro c rfl hc
      exact ⟨rfl, hc, (List.append_nil _).symm⟩
  | validate field value extra =>
      rw [engineStep_validate]
      refine leads_of_event hn (.validate field value extra) _ rfl rfl rfl ?_
        plain_of_mem_fieldJobs
      rintro c rfl hc
      rw [jobs_step_validate, hc]
      exact ⟨by rw [← hc]; rfl, hc, rfl⟩
  | validateAll values =>
      rw [engineStep_validateAll]
      refine leads_of_event hn (.validateAll values) _ rfl rfl rfl ?_ plain_of_mem_formJobs
      rintro c rfl hc
      rw [jobs_step_validateAll, hc]
      exact ⟨by rw [← hc]; rfl, hc, rfl⟩
  | bag b =>
      have hsame : (h.engineStep n e (.bag b)).1 = h := by
        have hself : h.engines.set n e = h.engines := by
          obtain ⟨hlt, rfl⟩ := List.getElem?_eq_some_iff.mp hn
          exact List.set_getElem_self hlt
        simp only [engineStep, setEngine, hbag b rfl e.bag, hself]
      rw [hsame]
      exact Leads.refl h
  | _ => exact Leads.refl h

end Host

end FieldRules
