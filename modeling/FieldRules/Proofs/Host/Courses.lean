import FieldRules.Proofs.Host.Frame
import FieldRules.Proofs.Host.Settle

/-!
# The courses of a host's engines

Whatever a host does, short of editing a bag by hand, each of its engines goes through a course of
its own (`run_followed`): what the host does to other engines is no event of it, and a gate that
opens ends those parts of the engine's jobs that waited for nothing else, one event for each.

So what holds in every course, of every engine, holds of every engine in every session.
-/

namespace FieldRules

/-- The step edits no bag by hand, and an engine that it makes has its rules attached one after the
other. -/
def Step.KeepsBags : Step → Prop
  | .create _ e => ∃ rules locale attributes, e = Engine.ofRules rules locale attributes
  | .engine _ (.bag s) => ∀ b : Bag, (b.step s).1 = b
  | _ => True

namespace Host

variable {h h' : Host}

/-! ## New engines -/

/-- An engine that is made with rules has come through a course, in which they were attached. -/
theorem Followed.addEngine (hf : h.Followed) {rules : Table String (List Rule)} {locale : Key}
    {attributes : Table String String}
    (hengines : h'.engines = h.engines ++ [Engine.ofRules rules locale attributes])
    (hjobs : h'.jobs = h.jobs) (hshared : h'.shared = h.shared) : h'.Followed := by
  refine ⟨⟨?_, ?_⟩, ?_⟩
  · intro a ha
    rw [hjobs] at ha
    have := hf.sound.owned a ha
    rw [hengines, List.length_append]
    omega
  · rw [hjobs]
    exact hf.sound.started
  · intro n hn
    have hjobsOf : h'.jobsOf n = h.jobsOf n := by rw [jobsOf, hjobs, jobsOf]
    by_cases hold : n < h.engines.length
    · obtain ⟨shared, locale, attributes, events, hfollows⟩ := hf.follows n hold
      refine ⟨shared, locale, attributes, events, ?_, hshared.trans hfollows.shared, ?_⟩
      · rw [hengines, List.getElem?_append_left hold]
        exact hfollows.engine
      · rw [hjobsOf]
        exact hfollows.jobs
    · have hlast : n = h.engines.length := by
        rw [hengines, List.length_append, List.length_singleton] at hn
        omega
      subst hlast
      -- No job belongs to an engine that was not there.
      have hnone : h.jobsOf h.engines.length = [] := by
        rw [jobsOf, List.map_eq_nil_iff, List.filter_eq_nil_iff]
        intro a ha
        have := hf.sound.owned a ha
        rw [beq_iff_eq]
        omega
      obtain ⟨hattached, hsame, hno⟩ := Course.run_attach h'.shared rules locale attributes
      refine ⟨h'.shared, locale, attributes, _, ?_, hsame.symm, ?_⟩
      · rw [hattached, hengines]
        exact List.getElem?_concat_length
      · rw [hjobsOf, hnone, hno]

/-! ## Steps -/

theorem Followed.share (hf : h.Followed) (hengines : h'.engines = h.engines)
    (hjobs : h'.jobs = h.jobs) : h'.Followed :=
  hf.of_leads (leads_of_share hengines hjobs)

theorem Followed.catalogStep (hf : h.Followed) (s : CatalogStep) : (h.catalogStep s).1.Followed := by
  cases s <;> exact hf.share rfl rfl

theorem Followed.dictionaryStep (hf : h.Followed) (s : DictionaryStep) :
    (h.dictionaryStep s).1.Followed := by
  cases s with
  | get locale name field params =>
      simp only [Host.dictionaryStep]
      split <;> exact hf
  | _ => exact hf.share rfl rfl

theorem Followed.ownerStep (hf : h.Followed) (registry : String) (s : OwnerStep) :
    (h.ownerStep registry s).1.Followed := by
  cases s with
  | register owner newName =>
      obtain ⟨hengines, hjobs, hshared⟩ := h.registerOwner_engines registry owner newName
      by_cases hknown : ((h.registry registry).owners.get? owner).isSome = true
      · rw [if_pos hknown] at hengines hjobs
        exact hf.share hengines hjobs
      · rw [if_neg hknown] at hengines hjobs hshared
        exact hf.addEngine hengines hjobs hshared
  | _ => exact hf.share rfl rfl

theorem Followed.step (hf : h.Followed) {s : Step} (hs : s.KeepsBags) : (h.step s).1.Followed := by
  cases s with
  | create name e =>
      obtain ⟨rules, locale, attributes, rfl⟩ := hs
      exact hf.addEngine rfl rfl rfl
  | engine name s =>
      rcases h.step_engine_cases name s with hstep | ⟨n, e, -, hn, hstep⟩
      · rw [hstep]
        exact hf
      · rw [hstep]
        apply hf.of_leads (leads_engineStep hn _)
        rintro b rfl
        exact hs
  | catalog s => exact hf.catalogStep s
  | dictionary s => exact hf.dictionaryStep s
  | owners registry s => exact hf.ownerStep registry s
  | start jobs =>
      have hstarted : h.Leads (h.startJobs jobs).result := leads_startEach h jobs
      exact hf.of_leads (hstarted.trans (leads_settle _))
  | release gate passed =>
      have hopened : (h.openGate gate passed).Followed := hf.share rfl rfl
      exact hopened.of_leads (leads_settle _)
  | setProbe probe => exact hf.share rfl rfl

/-! ## Runs -/

theorem followed_fresh (yaml : YamlReader) : (fresh yaml).Followed where
  sound := ⟨by intro a ha; simp [fresh] at ha, by intro a ha; simp [fresh] at ha⟩
  follows := by intro n hn; simp [fresh] at hn

theorem Followed.run (hf : h.Followed) {steps : List Step} (hsteps : ∀ s ∈ steps, s.KeepsBags) :
    (h.run steps).1.Followed := by
  induction steps generalizing h with
  | nil => exact hf
  | cons s steps ih =>
      obtain ⟨hs, hrest⟩ := List.forall_mem_cons.mp hsteps
      exact ih (hf.step hs) hrest

/-- In every session in which no bag is edited by hand, every engine comes through a course. -/
theorem run_followed (yaml : YamlReader) {steps : List Step} (hsteps : ∀ s ∈ steps, s.KeepsBags) :
    ((fresh yaml).run steps).1.Followed :=
  (followed_fresh yaml).run hsteps

/-- What holds of the engine of every course holds of every engine of such a session. -/
theorem engine_of_courses {P : Engine → Prop}
    (hcourses : ∀ shared locale attributes events,
      P ((Course.fresh shared locale attributes).run events).engine)
    {yaml : YamlReader} {steps : List Step} (hsteps : ∀ s ∈ steps, s.KeepsBags) {e : Engine}
    (he : e ∈ ((fresh yaml).run steps).1.engines) : P e := by
  obtain ⟨n, hn⟩ := List.mem_iff_getElem?.mp he
  obtain ⟨shared, locale, attributes, events, hfollows⟩ :=
    (run_followed yaml hsteps).follows n (List.getElem?_eq_some_iff.mp hn).1
  have hengine := hfollows.engine.symm.trans hn
  rw [Option.some.injEq] at hengine
  rw [← hengine]
  exact hcourses shared locale attributes events

end Host

end FieldRules
