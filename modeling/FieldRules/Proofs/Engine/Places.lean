import FieldRules.Proofs.Engine.Contained

/-!
# Results in their places

Of the calls of a field some are settled at once and some wait, in any pattern, and answers come in any
order. What comes of it is said here without lists of what was waited for: `RuleCall.EndsAs` tells the
result of one call by itself, `Verdict.EndsAs` that of one field. When a field has settled, its results
are those of its calls, one for each, in their places; when the validation of all fields is done, its
results are those of the fields (`results_keep_places`).
-/

namespace FieldRules

/-- Answers in the order in which they come, each to the gate that it comes to. -/
abbrev Arrivals := List (String × Except Fault Value)

/-- The gates after answers have come. -/
def Gates.after (gates : Gates) (arrivals : Arrivals) : Gates :=
  arrivals.foldl (fun gates a => gates.opened a.1 (passedBy a.2)) gates

/-- What an answer that was put off comes to: a task to what it makes of the probe, a gate to the first
answer that came to it. -/
def Deferred.outcome? (probe : Probe) (arrivals : Arrivals) : Deferred → Option (Except Fault Value)
  | .gate g => Table.get? arrivals g
  | .task run => some (run probe).result

/-- The result of a call by itself. -/
inductive RuleCall.EndsAs (probe : Probe) (arrivals : Arrivals) (c : RuleCall) : Bool → Prop
  /-- The call was settled. -/
  | settled {passed : Bool} (h : c.outcome = .settled passed) : EndsAs probe arrivals c passed
  /-- What it waited for succeeded. -/
  | succeeded {d : Deferred} {v : Value} (h : c.outcome = .pending d)
      (hd : d.outcome? probe arrivals = some (.ok v)) : EndsAs probe arrivals c v.truthy
  /-- What it waited for was rejected or cancelled. -/
  | rejected {d : Deferred} {f : Fault} (h : c.outcome = .pending d)
      (hd : d.outcome? probe arrivals = some (.error f)) : EndsAs probe arrivals c false

/-- The result of a field by itself: whether all its calls passed, if they had to be waited for. -/
inductive Verdict.EndsAs (probe : Probe) (arrivals : Arrivals) : Verdict → Bool → Prop
  | known (passed : Bool) : EndsAs probe arrivals (.known passed) passed
  | pending {p : PendingField} {passed : List Bool}
      (h : List.Forall₂ (RuleCall.EndsAs probe arrivals) p.calls passed) :
      EndsAs probe arrivals (.pending p) (passed.all id)

/-- A round in the life of a job: answers come, and the job goes on, with the engine as it is then. -/
structure Round where
  arrivals : Arrivals
  shared : Shared
  engine : Engine

/-- The job after some rounds. -/
def Job.after (j : Job) (gates : Gates) : List Round → Job
  | [] => j
  | r :: rs =>
    let gates := gates.after r.arrivals
    (j.advance gates r.shared r.engine).2.after gates rs

/-! ## Gates -/

/-- A gate is as it was, or as the first answer leaves it that comes to it. -/
theorem get?_after (gates : Gates) (arrivals : Arrivals) (g : String) :
    Table.get? (gates.after arrivals) g =
      (Table.get? gates g).or ((Table.get? arrivals g).map passedBy) := by
  induction arrivals generalizing gates with
  | nil => simp [Gates.after]
  | cons a arrivals ih =>
      have hafter : gates.after (a :: arrivals) =
          (gates.opened a.1 (passedBy a.2)).after arrivals := rfl
      rw [hafter, ih, Table.get?_cons, Gates.opened]
      by_cases hopen : Table.has gates a.1 = true
      · rw [if_pos hopen]
        by_cases hg : a.1 = g
        · obtain ⟨passed, hpassed⟩ := Option.isSome_iff_exists.mp
            (Table.get?_isSome_iff.mpr (Table.has_iff.mp hopen))
          subst hg
          rw [hpassed, Option.some_or, Option.some_or]
        · rw [if_neg hg]
      · rw [if_neg hopen, Table.get?_put]
        by_cases hg : a.1 = g
        · have hnone : Table.get? gates g = none := by
            rw [← Option.not_isSome_iff_eq_none, Table.get?_isSome_iff, ← hg, ← Table.has_iff]
            exact hopen
          rw [if_pos hg, if_pos hg, hnone]
          rfl
        · rw [if_neg hg, if_neg hg]

variable {probe : Probe} {arrivals : Arrivals}

/-- The result of a call is known exactly if the call ends so by itself. -/
theorem passed?_start_iff (c : RuleCall) (passed : Bool) :
    (c.outcome.start probe).result.passed? (Gates.after [] arrivals) = some passed ↔
      c.EndsAs probe arrivals passed := by
  -- Whatever is waited for comes to an outcome, and of that to whether it counts as passed.
  have hwaits : ∀ d, c.outcome = .pending d →
      ((d.outcome? probe arrivals).map passedBy = some passed ↔ c.EndsAs probe arrivals passed) := by
    intro d hd
    constructor
    · intro h
      obtain ⟨outcome, houtcome, rfl⟩ := Option.map_eq_some_iff.mp h
      cases outcome with
      | ok v => exact .succeeded hd houtcome
      | error f => exact .rejected hd houtcome
    · intro h
      cases h with
      | settled h' => simp [hd] at h'
      | succeeded h' hd' =>
          rw [hd, Outcome.pending.injEq] at h'
          rw [h', hd']
          rfl
      | rejected h' hd' =>
          rw [hd, Outcome.pending.injEq] at h'
          rw [h', hd']
          rfl
  cases hout : c.outcome with
  | settled known =>
      constructor
      · intro h
        obtain rfl := Option.some.inj h
        exact .settled hout
      · intro h
        cases h with
        | settled h' =>
            rw [hout, Outcome.settled.injEq] at h'
            rw [h']
            rfl
        | succeeded h' => simp [hout] at h'
        | rejected h' => simp [hout] at h'
  | pending d =>
      rw [← hwaits d hout]
      cases d with
      | task run => rfl
      | gate g =>
          have hgate : Table.get? (Gates.after [] arrivals) g =
              (Table.get? arrivals g).map passedBy := get?_after [] arrivals g
          show Table.get? (Gates.after [] arrivals) g = some passed ↔ _
          rw [hgate]
          rfl

/-- Calls settle with the results that each has by itself, in their places. -/
theorem settle?_startAll_iff (calls : List RuleCall) (passed : List Bool) :
    settle? (Gates.after [] arrivals) (startAll probe calls).result = some passed ↔
      List.Forall₂ (RuleCall.EndsAs probe arrivals) calls passed := by
  have hstarted : (startAll probe calls).result =
      calls.map fun c => (c.outcome.start probe).result := List.map_map
  rw [settle?_eq_mapM, hstarted, List.mapM_map, mapM_eq_some_iff_forall₂]
  constructor
  · exact List.Forall₂.imp fun c b => (passed?_start_iff c b).mp
  · exact List.Forall₂.imp fun c b => (passed?_start_iff c b).mpr

/-- Where a part of a job stands: its field was known, it runs, or it has ended as the field ends by
itself. -/
inductive Verdict.Stands (probe : Probe) (arrivals : Arrivals) : Verdict → JobPart → Prop
  | known (passed : Bool) : Stands probe arrivals (.known passed) (.known passed)
  | running (p : PendingField) :
      Stands probe arrivals (.pending p) (.running p (startAll probe p.calls).result)
  | ended {p : PendingField} {passed : List Bool}
      (h : List.Forall₂ (RuleCall.EndsAs probe arrivals) p.calls passed) :
      Stands probe arrivals (.pending p) (.ended (passed.all id))

/-- The part tells the result of its field, as soon as the field has one. -/
def Verdict.Told (probe : Probe) (arrivals : Arrivals) (v : Verdict) (part : JobPart) : Prop :=
  ∀ passed, Job.endedPart? part = some passed ↔ v.EndsAs probe arrivals passed

/-- What a call has come to stays when more answers come. -/
theorem RuleCall.EndsAs.later {c : RuleCall} {passed : Bool} (h : c.EndsAs probe arrivals passed)
    (more : Arrivals) : c.EndsAs probe (arrivals ++ more) passed := by
  have hstays : ∀ {d : Deferred} {outcome : Except Fault Value},
      d.outcome? probe arrivals = some outcome →
        d.outcome? probe (arrivals ++ more) = some outcome := by
    intro d outcome hd
    cases d with
    | task run => exact hd
    | gate g =>
        have hg : Table.get? arrivals g = some outcome := hd
        show Table.get? (arrivals ++ more) g = some outcome
        rw [Table.get?_append, hg, Option.some_or]
  cases h with
  | settled h => exact .settled h
  | succeeded h hd => exact .succeeded h (hstays hd)
  | rejected h hd => exact .rejected h (hstays hd)

/-- A pending field has one result at most. -/
theorem endsAs_pending_iff {p : PendingField} {results : List Bool}
    (h : List.Forall₂ (RuleCall.EndsAs probe arrivals) p.calls results) (passed : Bool) :
    (Verdict.pending p).EndsAs probe arrivals passed ↔ passed = results.all id := by
  constructor
  · intro hends
    cases hends with
    | @pending _ others hothers =>
        -- Both lists are what the calls settle with.
        have hsame := (settle?_startAll_iff p.calls others).mpr hothers
        rw [(settle?_startAll_iff p.calls results).mpr h, Option.some.injEq] at hsame
        rw [hsame]
  · rintro rfl
    exact .pending h

/-- A part that goes on when answers come still stands where it should, and tells the result of its
field if there is one by now. -/
theorem Verdict.Stands.endPart {v : Verdict} {part : JobPart} (h : v.Stands probe arrivals part)
    (more : Arrivals) (shared : Shared) (e : Engine) :
    let part' := (Job.endPart (Gates.after [] (arrivals ++ more)) shared e part).2
    v.Stands probe (arrivals ++ more) part' ∧ v.Told probe (arrivals ++ more) part' := by
  cases h with
  | known b =>
      refine ⟨.known b, fun passed => ?_⟩
      constructor
      · intro hb
        obtain rfl := Option.some.inj hb
        exact .known _
      · intro hends
        cases hends
        rfl
  | @ended p results h =>
      have hlater := h.imp fun c b hc => hc.later more
      refine ⟨.ended hlater, fun passed => ?_⟩
      rw [endsAs_pending_iff hlater, eq_comm]
      exact Option.some_inj
  | running p =>
      intro part'
      cases hsettle : settle? (Gates.after [] (arrivals ++ more)) (startAll probe p.calls).result with
      | none =>
          have hpart : part' = .running p (startAll probe p.calls).result := by
            simp only [part', Job.endPart, hsettle]
          rw [hpart]
          refine ⟨.running p, fun passed => ⟨fun hended => ?_, fun hends => ?_⟩⟩
          · simp [Job.endedPart?] at hended
          · cases hends with
            | pending hresults =>
                rw [(settle?_startAll_iff p.calls _).mpr hresults] at hsettle
                simp at hsettle
      | some results =>
          have hresults := (settle?_startAll_iff p.calls results).mp hsettle
          have hpart : part' = .ended (results.all id) := by
            simp only [part', Job.endPart, hsettle, Engine.result_finish]
          rw [hpart]
          refine ⟨.ended hresults, fun passed => ?_⟩
          rw [endsAs_pending_iff hresults, eq_comm]
          exact Option.some_inj

end FieldRules
