import FieldRules.Proofs.Host.Without

/-!
# A host at rest

Between steps a host is at rest: of what was started, nothing can go on and nothing is left to be
closed (`Quiet.step`). So letting it go on once more changes nothing and tells nothing
(`Quiet.settle`).
-/

namespace FieldRules

/-- No part of a job can go on. -/
def Job.Stuck (gates : Gates) (j : Job) : Prop :=
  ∀ p progress, .running p progress ∈ j.parts → settle? gates progress = none

/-- A job that can neither go on nor be closed. -/
structure Awaited.AtRest (gates : Gates) (w : Awaited) : Prop where
  stuck : w.job.Stuck gates
  closed : w.job.result?.isSome = true → w.closed = true

namespace Job

/-- A job that is stuck stays as it is. -/
theorem endParts_of_stuck {gates : Gates} (shared : Shared) (e : Engine) {parts : List JobPart}
    (h : ∀ p progress, .running p progress ∈ parts → settle? gates progress = none) :
    endParts gates shared e parts = (e, parts) := by
  induction parts with
  | nil => rfl
  | cons part rest ih =>
      have hpart : endPart gates shared e part = (e, part) := by
        cases part with
        | running p progress => simp only [endPart, h p progress List.mem_cons_self]
        | _ => rfl
      have hrest := ih fun p progress hmem => h p progress (List.mem_cons_of_mem _ hmem)
      simp only [endParts, hpart, hrest]

/-- A job that went on as far as it could is stuck. -/
theorem stuck_endParts (gates : Gates) (shared : Shared) (e : Engine) (parts : List JobPart) :
    ∀ p progress, .running p progress ∈ (endParts gates shared e parts).2 →
      settle? gates progress = none := by
  induction parts generalizing e with
  | nil => intro p progress hmem; simp [endParts] at hmem
  | cons part rest ih =>
      intro p progress hmem
      rcases List.mem_cons.mp hmem with hhere | hrest
      · cases part with
        | running q pending =>
            simp only at hhere
            split at hhere
            · rename_i hnone
              obtain ⟨rfl, rfl⟩ := JobPart.running.inj hhere
              exact hnone
            · simp at hhere
        | _ => simp at hhere
      · exact ih _ p progress hrest

end Job

namespace Host

variable {h : Host}

/-- Every job belongs to an engine, and what was started are jobs. -/
structure Ready (h : Host) : Prop where
  owned : ∀ b ∈ enginesOf h.jobs, b < h.engines.length
  started : ∀ n ∈ h.started, n < h.jobs.length

/-- Nothing that was started can go on. -/
structure Quiet (h : Host) : Prop where
  ready : h.Ready
  rest : ∀ n ∈ h.started, ∀ w, h.jobs[n]? = some w → w.AtRest h.gates

/-! ## A host at rest stays as it is -/

theorem advanceJob_of_atRest {n : Nat} {w : Awaited} (hn : h.jobs[n]? = some w)
    (hrest : w.AtRest h.gates) : h.advanceJob n = h := by
  simp only [advanceJob, hn]
  split
  · rfl
  · rename_i e he
    obtain ⟨hlt, rfl⟩ := List.getElem?_eq_some_iff.mp he
    obtain ⟨hlt', hget⟩ := List.getElem?_eq_some_iff.mp hn
    have hends := Job.endParts_of_stuck h.shared h.engines[w.engine] hrest.stuck
    simp only [Job.advance, hends, List.set_getElem_self]
    rw [← hget, List.set_getElem_self]

theorem closeJob_of_atRest {n : Nat} {w : Awaited} (hn : h.jobs[n]? = some w)
    (hrest : w.AtRest h.gates) : h.closeJob n = (h, none) := by
  simp only [closeJob, hn]
  split
  · rfl
  · rename_i hopen
    cases hresult : w.job.result? with
    | none => rfl
    | some passed =>
        have hclosed := hrest.closed (by rw [hresult]; rfl)
        exact absurd hclosed hopen

/-- A host at rest stays as it is. -/
theorem Quiet.settle (hq : h.Quiet) : h.settle = (h, []) := by
  have hrest : ∀ n ∈ h.started, ∃ w, h.jobs[n]? = some w ∧ w.AtRest h.gates := by
    intro n hn
    have hget := List.getElem?_eq_getElem (hq.ready.started n hn)
    exact ⟨_, hget, hq.rest n hn _ hget⟩
  have hadvance : ∀ numbers : List Nat,
      (∀ n ∈ numbers, ∃ w, h.jobs[n]? = some w ∧ w.AtRest h.gates) →
        numbers.foldl advanceJob h = h := by
    intro numbers
    induction numbers with
    | nil => exact fun _ => rfl
    | cons n ns ih =>
        intro hall
        obtain ⟨⟨w, hn, hw⟩, hns⟩ := List.forall_mem_cons.mp hall
        rw [List.foldl_cons, advanceJob_of_atRest hn hw]
        exact ih hns
  have hclose : ∀ numbers : List Nat,
      (∀ n ∈ numbers, ∃ w, h.jobs[n]? = some w ∧ w.AtRest h.gates) →
        h.closeJobs numbers = (h, []) := by
    intro numbers
    induction numbers with
    | nil => exact fun _ => rfl
    | cons n ns ih =>
        intro hall
        obtain ⟨⟨w, hn, hw⟩, hns⟩ := List.forall_mem_cons.mp hall
        simp only [closeJobs, closeJob_of_atRest hn hw, ih hns]
        rfl
  show ((h.started.foldl advanceJob h).closeJobs (h.started.foldl advanceJob h).started) = _
  rw [hadvance h.started hrest]
  exact hclose h.started hrest

/-! ## Settling leads to rest -/

variable {h' : Host}

theorem Keeps.gates (hk : h.Keeps h') : h'.gates = h.gates := by
  rw [hk.frame]

theorem Keeps.ready (hk : h.Keeps h') (hjobs : enginesOf h'.jobs = enginesOf h.jobs)
    (hstarted : h'.started = h.started) (hr : h.Ready) : h'.Ready where
  owned := by
    rw [hjobs, hk.length_engines]
    exact hr.owned
  started := by
    rw [hstarted, length_jobs_of_engines hjobs]
    exact hr.started

theorem started_advanceJob (h : Host) (n : Nat) : (h.advanceJob n).started = h.started := by
  simp only [advanceJob]
  split
  · rfl
  · split <;> rfl

theorem started_advance (h : Host) (numbers : List Nat) :
    (numbers.foldl advanceJob h).started = h.started := by
  induction numbers generalizing h with
  | nil => rfl
  | cons n ns ih => exact (ih _).trans (h.started_advanceJob n)

theorem started_closeJob (h : Host) (n : Nat) : (h.closeJob n).1.started = h.started := by
  simp only [closeJob]
  split
  · rfl
  · split
    · rfl
    · split <;> rfl

theorem started_closeJobs (h : Host) (numbers : List Nat) :
    (h.closeJobs numbers).1.started = h.started := by
  induction numbers generalizing h with
  | nil => rfl
  | cons n ns ih => exact (ih _).trans (h.started_closeJob n)

theorem Ready.advanceJob (hr : h.Ready) (n : Nat) : (h.advanceJob n).Ready :=
  (keeps_advanceJob h n).ready (h.enginesOf_advanceJob n) (h.started_advanceJob n) hr

/-- A job that went on is stuck; the others are as they were. -/
theorem getElem?_advanceJob (hr : h.Ready) {n m : Nat} {w : Awaited}
    (hm : (h.advanceJob n).jobs[m]? = some w) :
    (m ≠ n ∧ h.jobs[m]? = some w) ∨ (m = n ∧ w.job.Stuck h.gates) := by
  simp only [advanceJob] at hm
  by_cases hmn : m = n
  · subst hmn
    right
    refine ⟨rfl, ?_⟩
    cases hget : h.jobs[m]? with
    | none => simp [hget] at hm
    | some before =>
        have hlt : before.engine < h.engines.length := by
          apply hr.owned
          exact List.mem_map.mpr ⟨before, List.mem_of_getElem? hget, rfl⟩
        have he : h.engines[before.engine]? = some h.engines[before.engine] :=
          List.getElem?_eq_getElem hlt
        have hlt' : m < h.jobs.length := (List.getElem?_eq_some_iff.mp hget).1
        simp only [hget, he, List.getElem?_set_self hlt', Option.some.injEq] at hm
        rw [← hm]
        exact Job.stuck_endParts _ _ _ _
  · left
    refine ⟨hmn, ?_⟩
    split at hm
    · exact hm
    · split at hm
      · exact hm
      · rwa [List.getElem?_set_ne (Ne.symm hmn)] at hm

theorem stuck_advance (hr : h.Ready) {numbers : List Nat} {m : Nat} {w : Awaited}
    (hm : (numbers.foldl Host.advanceJob h).jobs[m]? = some w)
    (hgone : m ∈ numbers ∨ ∀ before, h.jobs[m]? = some before → before.job.Stuck h.gates) :
    w.job.Stuck h.gates := by
  induction numbers generalizing h with
  | nil =>
      rcases hgone with hmem | hstuck
      · simp at hmem
      · exact hstuck w hm
  | cons n ns ih =>
      have hgates : (h.advanceJob n).gates = h.gates := (keeps_advanceJob h n).gates
      have hrest := ih (hr.advanceJob n) hm
      rw [hgates] at hrest
      apply hrest
      by_cases hmn : m ∈ ns
      · exact Or.inl hmn
      · right
        intro before hbefore
        rcases getElem?_advanceJob hr hbefore with ⟨hne, hsame⟩ | ⟨-, hstuck⟩
        · rcases hgone with hmem | hstuck
          · exact absurd hmem (by simp [hne, hmn])
          · exact hstuck before hsame
        · exact hstuck

/-- Closing changes no job, but that one that has ended is closed then. -/
theorem getElem?_closeJob {n m : Nat} {w : Awaited} (hm : (h.closeJob n).1.jobs[m]? = some w) :
    ∃ before, h.jobs[m]? = some before ∧ w.job = before.job ∧
      (m = n ∨ before.closed = true → w.job.result?.isSome = true → w.closed = true) := by
  simp only [closeJob] at hm
  cases hget : h.jobs[n]? with
  | none =>
      rw [hget] at hm
      refine ⟨w, hm, rfl, ?_⟩
      rintro (rfl | hclosed) -
      · simp [hget] at hm
      · exact hclosed
  | some before =>
      rw [hget] at hm
      simp only at hm
      split at hm
      · rename_i hclosed
        refine ⟨w, hm, rfl, ?_⟩
        rintro (rfl | hclosed') -
        · rw [hget, Option.some.injEq] at hm
          rw [← hm]
          exact hclosed
        · exact hclosed'
      · split at hm
        · rename_i hnone
          refine ⟨w, hm, rfl, ?_⟩
          rintro (rfl | hclosed) hsome
          · rw [hget, Option.some.injEq] at hm
            rw [← hm, hnone] at hsome
            simp at hsome
          · exact hclosed
        · by_cases hmn : m = n
          · subst hmn
            have hlt : m < h.jobs.length := (List.getElem?_eq_some_iff.mp hget).1
            rw [List.getElem?_set_self hlt, Option.some.injEq] at hm
            exact ⟨before, hget, by rw [← hm], fun _ _ => by rw [← hm]⟩
          · rw [List.getElem?_set_ne (Ne.symm hmn)] at hm
            refine ⟨w, hm, rfl, ?_⟩
            rintro (rfl | hclosed) -
            · exact absurd rfl hmn
            · exact hclosed

theorem getElem?_closeJobs {numbers : List Nat} {m : Nat} {w : Awaited}
    (hm : (h.closeJobs numbers).1.jobs[m]? = some w) :
    ∃ before, h.jobs[m]? = some before ∧ w.job = before.job ∧
      (m ∈ numbers ∨ before.closed = true → w.job.result?.isSome = true → w.closed = true) := by
  induction numbers generalizing h with
  | nil => exact ⟨w, hm, rfl, fun hor _ => hor.resolve_left (by simp)⟩
  | cons n ns ih =>
      obtain ⟨mid, hmid, hjob, hclosed⟩ := ih hm
      obtain ⟨before, hbefore, hjob', hclosed'⟩ := getElem?_closeJob hmid
      refine ⟨before, hbefore, hjob.trans hjob', ?_⟩
      intro hor hsome
      by_cases hmn : m ∈ ns
      · exact hclosed (Or.inl hmn) hsome
      · have hfirst : m = n ∨ before.closed = true := by
          rcases hor with hmem | hbefore'
          · exact Or.inl ((List.mem_cons.mp hmem).resolve_right hmn)
          · exact Or.inr hbefore'
        exact hclosed (Or.inr (hclosed' hfirst (hjob ▸ hsome))) hsome

/-- Whatever was started, after it was let go on the host is at rest. -/
theorem Ready.settle (hr : h.Ready) : h.settle.1.Quiet := by
  have hstarted : h.settle.1.started = h.started :=
    (started_closeJobs _ _).trans (h.started_advance h.started)
  refine ⟨(keeps_settle h).ready h.enginesOf_settle hstarted hr, ?_⟩
  intro n hn w hw
  rw [hstarted] at hn
  rw [(keeps_settle h).gates]
  have hn' : n ∈ (h.started.foldl Host.advanceJob h).started := by
    rw [started_advance]
    exact hn
  obtain ⟨before, hbefore, hjob, hclosed⟩ := getElem?_closeJobs hw
  refine ⟨?_, hclosed (Or.inl hn')⟩
  rw [hjob]
  exact stuck_advance hr hbefore (Or.inl hn)

/-! ## Steps -/

theorem Ready.setEngine (hr : h.Ready) (n : Nat) (e : Engine) : (h.setEngine n e).Ready where
  owned := by
    show ∀ b ∈ enginesOf h.jobs, b < (h.engines.set n e).length
    rw [List.length_set]
    exact hr.owned
  started := hr.started

theorem Ready.startJob (hr : h.Ready) (n : Nat) : (h.startJob n).result.Ready := by
  have hjobs := h.enginesOf_startJob n
  have hlength := length_jobs_of_engines hjobs
  refine ⟨?_, ?_⟩
  · rw [hjobs, (keeps_startJob h n).length_engines]
    exact hr.owned
  · intro m hm
    rw [hlength]
    simp only [Host.startJob] at hm
    split at hm
    · exact hr.started m hm
    · rename_i w hget
      split at hm
      · exact hr.started m hm
      · rcases List.mem_append.mp hm with hold | hnew
        · exact hr.started m hold
        · obtain rfl := List.mem_singleton.mp hnew
          exact (List.getElem?_eq_some_iff.mp hget).1

theorem Ready.startEach (hr : h.Ready) (numbers : List Nat) : (h.startEach numbers).1.Ready := by
  induction numbers generalizing h with
  | nil => exact hr
  | cons n ns ih =>
      rw [startEach_cons_fst]
      exact ih (hr.startJob n)

/-- A host at rest stays at rest when engines and jobs are added. -/
theorem Quiet.grow (hq : h.Quiet) {more : List Awaited}
    (hlength : h.engines.length ≤ h'.engines.length) (hjobs : h'.jobs = h.jobs ++ more)
    (hmore : ∀ w ∈ more, w.engine < h'.engines.length) (hstarted : h'.started = h.started)
    (hgates : h'.gates = h.gates) : h'.Quiet where
  ready := by
    constructor
    · intro b hb
      rw [hjobs, enginesOf, List.map_append, List.mem_append] at hb
      rcases hb with hold | hnew
      · exact Nat.lt_of_lt_of_le (hq.ready.owned b hold) hlength
      · obtain ⟨w, hw, rfl⟩ := List.mem_map.mp hnew
        exact hmore w hw
    · intro n hn
      rw [hstarted] at hn
      rw [hjobs, List.length_append]
      exact Nat.lt_of_lt_of_le (hq.ready.started n hn) (Nat.le_add_right _ _)
  rest := by
    intro n hn w hw
    rw [hstarted] at hn
    rw [hjobs, List.getElem?_append_left (hq.ready.started n hn)] at hw
    rw [hgates]
    exact hq.rest n hn w hw

theorem Quiet.widen (hq : h.Quiet) (hlength : h.engines.length ≤ h'.engines.length)
    (hjobs : h'.jobs = h.jobs) (hstarted : h'.started = h.started) (hgates : h'.gates = h.gates) :
    h'.Quiet := by
  have happend : h'.jobs = h.jobs ++ [] := by rw [hjobs, List.append_nil]
  exact hq.grow hlength happend (by simp) hstarted hgates

/-- A step of an engine adds jobs of that engine at most, which are not started. -/
theorem engineStep_jobs (h : Host) (n : Nat) (e : Engine) (s : EngineStep) :
    (∃ jobs : List Job, (h.engineStep n e s).1.jobs =
        h.jobs ++ jobs.map fun job => { engine := n, job }) ∧
      (h.engineStep n e s).1.started = h.started ∧ (h.engineStep n e s).1.gates = h.gates := by
  cases s with
  | validate field value extra =>
      rw [engineStep_validate]
      exact ⟨⟨_, rfl⟩, rfl, rfl⟩
  | validateAll values =>
      rw [engineStep_validateAll]
      exact ⟨⟨_, rfl⟩, rfl, rfl⟩
  | _ => exact ⟨⟨[], (List.append_nil _).symm⟩, rfl, rfl⟩

theorem Quiet.engineStep (hq : h.Quiet) {n : Nat} {e : Engine} (s : EngineStep)
    (hn : h.engines[n]? = some e) : (h.engineStep n e s).1.Quiet := by
  obtain ⟨⟨jobs, hjobs⟩, hstarted, hgates⟩ := h.engineStep_jobs n e s
  obtain ⟨e', hengines, -⟩ := h.engineStep_engines n s hn
  have hlength : (h.engineStep n e s).1.engines.length = h.engines.length := by
    rw [hengines, List.length_set]
  refine hq.grow (Nat.le_of_eq hlength.symm) hjobs ?_ hstarted hgates
  intro w hw
  obtain ⟨job, -, rfl⟩ := List.mem_map.mp hw
  rw [hlength]
  exact (List.getElem?_eq_some_iff.mp hn).1

theorem Quiet.ownerStep (hq : h.Quiet) (registry : String) (s : OwnerStep) :
    (h.ownerStep registry s).1.Quiet := by
  have hlength : h.engines.length ≤ (h.ownerStep registry s).1.engines.length := by
    rcases (h.ownerStep_engines registry s).2 with hsame | ⟨rules, hadded⟩
    · rw [hsame]
    · rw [hadded, List.length_append]
      omega
  have hrest : (h.ownerStep registry s).1.jobs = h.jobs ∧
      (h.ownerStep registry s).1.started = h.started ∧
      (h.ownerStep registry s).1.gates = h.gates := by
    cases s with
    | register owner newName =>
        simp only [Host.ownerStep, registerOwner]
        split <;> split <;> exact ⟨rfl, rfl, rfl⟩
    | _ => exact ⟨rfl, rfl, rfl⟩
  obtain ⟨hjobs, hstarted, hgates⟩ := hrest
  exact hq.widen hlength hjobs hstarted hgates

/-- Between steps a host is at rest. -/
theorem Quiet.step (hq : h.Quiet) (s : Step) : (h.step s).1.Quiet := by
  have hsame : ∀ h' : Host, h'.engines = h.engines → h'.jobs = h.jobs → h'.started = h.started →
      h'.gates = h.gates → h'.Quiet := by
    intro h' hengines hjobs hstarted hgates
    exact hq.widen (Nat.le_of_eq (by rw [hengines])) hjobs hstarted hgates
  cases s with
  | create name e =>
      refine hq.widen ?_ rfl rfl rfl
      show h.engines.length ≤ (h.engines ++ [e]).length
      rw [List.length_append]
      omega
  | engine name s =>
      rcases h.step_engine_cases name s with hstep | ⟨n, e, -, hn, hstep⟩
      · rw [hstep]
        exact hq
      · rw [hstep]
        exact hq.engineStep s hn
  | catalog s => cases s <;> exact hsame _ rfl rfl rfl rfl
  | dictionary s =>
      cases s with
      | get locale name field params =>
          simp only [Host.step, dictionaryStep]
          split <;> exact hq
      | _ => exact hsame _ rfl rfl rfl rfl
  | owners registry s => exact hq.ownerStep registry s
  | start jobs => exact (hq.ready.startEach jobs).settle
  | release gate passed =>
      have hr : (h.openGate gate passed).Ready := ⟨hq.ready.owned, hq.ready.started⟩
      exact hr.settle
  | setProbe probe => exact hsame _ rfl rfl rfl rfl

theorem quiet_fresh (yaml : YamlReader) : (fresh yaml).Quiet where
  ready := ⟨by simp [fresh, enginesOf], by simp [fresh]⟩
  rest := by simp [fresh]

/-! ## Without an engine -/

/-- Rest does not depend on the engine that is left out. -/
theorem Quiet.without {a : Nat} (hq : h.Quiet) : (h.without a).Quiet := by
  -- What is started without the engine is a job of the host.
  have hplace : ∀ k ∈ (h.without a).started, ∃ n w, n ∈ h.started ∧ h.jobs[n]? = some w ∧
      (h.without a).jobs[k]? = some { w with engine := slot a w.engine } := by
    intro k hk
    obtain ⟨n, hn, hnumber⟩ := List.mem_filterMap.mp hk
    have hget := List.getElem?_eq_getElem (hq.ready.started n hn)
    exact ⟨n, _, hn, hget, getElem?_filterMap_without? hnumber hget⟩
  refine ⟨⟨?_, ?_⟩, ?_⟩
  · intro b hb
    obtain ⟨w', hw', rfl⟩ := List.mem_map.mp hb
    obtain ⟨w, hw, hwithout⟩ := List.mem_filterMap.mp hw'
    have hlt := hq.ready.owned w.engine (List.mem_map.mpr ⟨w, hw, rfl⟩)
    unfold Awaited.without? at hwithout
    split at hwithout
    · simp at hwithout
    · rename_i hne
      rw [Option.some.injEq] at hwithout
      rw [← hwithout]
      show slot a w.engine < (h.engines.eraseIdx a).length
      rw [List.length_eraseIdx, slot]
      split <;> split <;> omega
  · intro k hk
    obtain ⟨n, w, -, -, hget⟩ := hplace k hk
    exact (List.getElem?_eq_some_iff.mp hget).1
  · intro k hk w' hw'
    obtain ⟨n, w, hn, hget, hget'⟩ := hplace k hk
    have hrest := hq.rest n hn w hget
    rw [hget', Option.some.injEq] at hw'
    rw [← hw']
    exact ⟨hrest.stuck, hrest.closed⟩

end Host

end FieldRules
