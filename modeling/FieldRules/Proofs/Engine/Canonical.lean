import FieldRules.Proofs.Engine.AtOnce
import FieldRules.Proofs.Engine.Settling

/-!
# The validation of all fields is canonical

However the answers are delivered and in whatever order the fields settle, whatever was in the bag
and whatever else was pending, a validation of all fields ends with the same bag and the same result
(`validateAll_canonical`): the failures that the values have, field after field in the order of the
fields, and whether there are none.
-/

namespace FieldRules

/-- The answers that are delivered are those that the calls come to by themselves. -/
def Engine.Lands (e : Engine) (shared : Shared) (values : String → Value)
    (delivered : String → Nat → Except Fault Value) (land : Deferred → Except Fault Value) : Prop :=
  ∀ f ∈ e.fieldNames, ∀ (i : Nat) (call : RuleCall) (d : Deferred),
    (e.callsOf shared f (values f))[i]? = some call → call.outcome = .pending d →
      delivered f i = land d

namespace Course

/-- The validation of all fields ends, with an engine and a result: at once, or as a job whose parts
have all ended, while nothing else happened than the end of pending validations and of jobs. -/
inductive FormEnds (c : Course) (values : String → Value)
    (delivered : String → Nat → Except Fault Value) : Engine → Bool → Prop where
  | at_once {passed : Bool}
      (h : (c.engine.validateAll c.shared values).2.result = .known passed) :
      FormEnds c values delivered (c.step (.validateAll values)).engine passed
  | later {verdicts : List Verdict} {mid : List Event} {passed : Bool}
      (h : (c.engine.validateAll c.shared values).2.result = .pending verdicts)
      (hmid : ∀ event ∈ mid, event.Settles c.engine.fieldNames delivered c.jobs.length)
      (hresult : ((c.step (.validateAll values)).run mid).result? c.jobs.length = some passed) :
      FormEnds c values delivered
        (((c.step (.validateAll values)).run mid).step (.close c.jobs.length)).engine passed

/-- What the validation of all fields comes to, in any event. -/
structure Canonical (c : Course) (values : String → Value)
    (delivered : String → Nat → Except Fault Value) : Prop where
  /-- The bag holds the failures of all fields, in order, and nothing else. -/
  bag : ∀ e passed, c.FormEnds values delivered e passed →
    e.bag.entries = c.engine.formEntries c.shared values delivered
  /-- The result is true exactly if there is no failure. -/
  result : ∀ e passed, c.FormEnds values delivered e passed →
    (passed = true ↔ c.engine.formEntries c.shared values delivered = [])
  /-- A pending validation of all fields is done as soon as every field that was pending has
  ended. -/
  ends : ∀ verdicts mid, (c.engine.validateAll c.shared values).2.result = .pending verdicts →
    (∀ event ∈ mid, event.Settles c.engine.fieldNames delivered c.jobs.length) →
    (((c.step (.validateAll values)).run mid).isDone c.jobs.length = true ↔
      ∀ k p, verdicts[k]? = some (.pending p) → mid.any (·.finishes c.jobs.length k) = true)
  /-- Bag, generations and whatever was pending before make no difference: in a course of any other
  engine that has the same fields, and whose rules say the same, it ends with the same entries and
  the same result. -/
  same : ∀ shared locale attributes events values' delivered',
    let c' := (fresh shared locale attributes).run events
    c'.engine.fieldNames = c.engine.fieldNames →
    (∀ f ∈ c.engine.fieldNames, c'.engine.judgements c'.shared values' delivered' f =
      c.engine.judgements c.shared values delivered f) →
    ∀ e passed e' passed', c.FormEnds values delivered e passed →
      c'.FormEnds values' delivered' e' passed' →
      e'.bag.entries = e.bag.entries ∧ passed' = passed
  /-- With validators that answer at once it ends at once, in the same way. -/
  at_once : ∀ land, c.engine.Lands c.shared values delivered land →
    ∃ passed, ((c.engine.atOnce land).validateAll (c.shared.atOnce land) values).2.result =
        .known passed ∧
      ((c.engine.atOnce land).validateAll (c.shared.atOnce land) values).1.bag.entries =
        c.engine.formEntries c.shared values delivered ∧
      (passed = true ↔ c.engine.formEntries c.shared values delivered = [])

variable {c d : Course} {values : String → Value} {delivered : String → Nat → Except Fault Value}

/-! ## The bag at the end -/

/-- A bag in order holds the failures of all fields once they are all recorded. -/
theorem entries_eq_formEntries (h : d.Consistent) (hsetup : Engine.SameSetup c.engine d.engine)
    (horder : d.engine.InOrder)
    (hrecorded : ∀ f ∈ c.engine.fieldNames, d.latest f =
      .recorded (c.engine.callsOf c.shared f (values f))
        (c.engine.resultsFor c.shared values delivered f) (c.engine.messages c.shared f)) :
    d.engine.bag.entries = c.engine.formEntries c.shared values delivered := by
  have hnames : d.engine.fieldNames = c.engine.fieldNames := congrArg Table.keys hsetup.fields
  rw [horder, hnames, Engine.formEntries]
  apply List.flatMap_congr
  intro f hf
  have hshown : d.engine.bag.entriesOf f = (d.latest f).entries f := h.tracks.shown f
  rw [hshown, hrecorded f hf]
  rfl

theorem Consistent.known (h : c.Consistent) {passed : Bool}
    (hknown : (c.engine.validateAll c.shared values).2.result = .known passed)
    (delivered : String → Nat → Except Fault Value) :
    (c.step (.validateAll values)).engine.bag.entries =
        c.engine.formEntries c.shared values delivered ∧
      passed = c.engine.fieldNames.all fun f =>
        (c.engine.resultsFor c.shared values delivered f).all id := by
  obtain ⟨hany, hengine, hpassed⟩ := Engine.validateAll_of_known hknown
  obtain ⟨hcalls, hverdicts⟩ := Engine.verdicts_of_known hany delivered
  constructor
  · have hsetup : Engine.SameSetup c.engine (c.step (.validateAll values)).engine := by
      show Engine.SameSetup c.engine (c.engine.validateAll c.shared values).1
      rw [hengine]
      exact (Engine.sameSetup_validateEach _ _ _ _).trans rfl
    apply entries_eq_formEntries (h.step _) hsetup (h.inOrder_validateAll values)
    intro f hf
    obtain ⟨k, hk⟩ := List.mem_iff_getElem?.mp hf
    have hsettled : c.engine.resultsFor c.shared values delivered f =
        settledResults (c.engine.callsOf c.shared f (values f)) :=
      resultsOf_of_settled (hcalls f hf) (delivered f)
    simp only [latest_step_validateAll h values hk, Latest.ofAsked, hcalls f hf,
      Bool.false_eq_true, if_false, hsettled]
  · rw [← hpassed, hverdicts, List.all_map]
    rfl

theorem Settling.close (h : c.Settling values delivered d) {passed : Bool}
    (hresult : d.result? c.jobs.length = some passed) :
    (d.step (.close c.jobs.length)).engine.bag.entries =
        c.engine.formEntries c.shared values delivered ∧
      passed = c.engine.fieldNames.all fun f =>
        (c.engine.resultsFor c.shared values delivered f).all id := by
  obtain ⟨hnone, hpassed⟩ := h.result?_eq_some_iff.mp hresult
  obtain ⟨j, hj, hwhole, -⟩ := h.job
  have hdone : d.isDone c.jobs.length = true := by
    simp [isDone, hj, hwhole, hresult]
  have horder := h.consistent.inOrder_close hdone
  have hafter := h.consistent.step (.close c.jobs.length)
  rw [step_close_of_done hdone] at horder hafter ⊢
  refine ⟨entries_eq_formEntries hafter (h.setup.trans rfl) horder ?_, hpassed⟩
  intro f hf
  obtain ⟨k, hk⟩ := List.mem_iff_getElem?.mp hf
  exact (h.recorded hk (hnone k)).1

/-- However it ends, the bag holds the failures of all fields and the result tells whether every
rule passed. -/
theorem Consistent.formEnds (h : c.Consistent) {e : Engine} {passed : Bool}
    (hends : c.FormEnds values delivered e passed) :
    e.bag.entries = c.engine.formEntries c.shared values delivered ∧
      passed = c.engine.fieldNames.all fun f =>
        (c.engine.resultsFor c.shared values delivered f).all id := by
  cases hends with
  | at_once hknown => exact h.known hknown delivered
  | later hpending hmid hresult => exact ((h.settling hpending delivered).run hmid).close hresult

theorem Consistent.result_iff (h : c.Consistent) {e : Engine} {passed : Bool}
    (hends : c.FormEnds values delivered e passed) :
    passed = true ↔ c.engine.formEntries c.shared values delivered = [] := by
  rw [Engine.formEntries_eq_nil_iff, ← (h.formEnds hends).2]

/-- In courses whose engines have the same fields, and whose rules say the same, it ends with the same
entries and the same result. -/
theorem Consistent.same {c' : Course} {values' : String → Value}
    {delivered' : String → Nat → Except Fault Value} (h : c.Consistent) (h' : c'.Consistent)
    (hnames : c'.engine.fieldNames = c.engine.fieldNames)
    (hsay : ∀ f ∈ c.engine.fieldNames, c'.engine.judgements c'.shared values' delivered' f =
      c.engine.judgements c.shared values delivered f) {e e' : Engine} {passed passed' : Bool}
    (hends : c.FormEnds values delivered e passed)
    (hends' : c'.FormEnds values' delivered' e' passed') :
    e'.bag.entries = e.bag.entries ∧ passed' = passed := by
  have hentries := Engine.formEntries_congr hnames hsay
  constructor
  · rw [(h.formEnds hends).1, (h'.formEnds hends').1, hentries]
  · rw [Bool.eq_iff_iff, h.result_iff hends, h'.result_iff hends', hentries]

theorem Settling.isDone_iff (h : c.Settling values delivered d) :
    d.isDone c.jobs.length = true ↔ ∀ k, d.waiting? c.jobs.length k = none := by
  obtain ⟨j, hj, hwhole, -⟩ := h.job
  rw [isDone, hj, Option.any_some, hwhole, Bool.true_and, Option.isSome_iff_exists]
  constructor
  · rintro ⟨passed, hresult⟩
    exact (h.result?_eq_some_iff.mp hresult).1
  · intro hnone
    exact ⟨_, h.result?_eq_some_iff.mpr ⟨hnone, rfl⟩⟩

theorem Consistent.isDone_iff (h : c.Consistent) {verdicts : List Verdict} {mid : List Event}
    (hpending : (c.engine.validateAll c.shared values).2.result = .pending verdicts)
    (hmid : ∀ event ∈ mid, event.Settles c.engine.fieldNames delivered c.jobs.length) :
    ((c.step (.validateAll values)).run mid).isDone c.jobs.length = true ↔
      ∀ k p, verdicts[k]? = some (.pending p) → mid.any (·.finishes c.jobs.length k) = true := by
  have hjobs : (c.step (.validateAll values)).jobs = c.jobs ++ [.ofForm verdicts] := by
    simp only [Course.step, hpending]
  have hwaiting : ∀ k, (c.step (.validateAll values)).waiting? c.jobs.length k =
      (verdicts[k]?).bind Verdict.pending? := by
    intro k
    rw [waiting?, part?_of_new_job hjobs, pending?_part_ofForm]
  rw [((h.settling hpending delivered).run hmid).isDone_iff]
  constructor
  · intro hnone k p hp
    have hk := hnone k
    rw [waiting?_run_of_settles hmid, hwaiting, hp] at hk
    by_contra hunfinished
    rw [if_neg hunfinished] at hk
    simp [Verdict.pending?] at hk
  · intro hall k
    rw [waiting?_run_of_settles hmid, hwaiting]
    cases hv : verdicts[k]? with
    | none => simp
    | some v =>
        cases v with
        | known passed => simp [Verdict.pending?]
        | pending p => rw [if_pos (hall k p hv)]

/-! ## Validators that answer at once -/

/-- The course with validators that answer otherwise from now on. -/
def answering (x : Exchange) (c : Course) : Course :=
  { c with shared := c.shared.exchanged x, engine := c.engine.exchanged x }

theorem Consistent.answering (h : c.Consistent) (x : Exchange) : (c.answering x).Consistent where
  tracks := ⟨h.tracks.shown, h.tracks.current, h.tracks.older, h.tracks.made, h.tracks.complete⟩
  nodup := h.nodup

/-- The course with validators that answer at once from now on. -/
def atOnce (land : Deferred → Except Fault Value) (c : Course) : Course :=
  { c with shared := c.shared.atOnce land, engine := c.engine.atOnce land }

theorem Consistent.atOnce (h : c.Consistent) (land : Deferred → Except Fault Value) :
    (c.atOnce land).Consistent :=
  h.answering (.atOnce land)

theorem Consistent.known_atOnce (h : c.Consistent) {land : Deferred → Except Fault Value}
    (hlands : c.engine.Lands c.shared values delivered land) :
    ∃ passed, ((c.engine.atOnce land).validateAll (c.shared.atOnce land) values).2.result =
        .known passed ∧
      ((c.engine.atOnce land).validateAll (c.shared.atOnce land) values).1.bag.entries =
        c.engine.formEntries c.shared values delivered ∧
      (passed = true ↔ c.engine.formEntries c.shared values delivered = []) := by
  have hsame : (c.engine.atOnce land).formEntries (c.shared.atOnce land) values delivered =
      c.engine.formEntries c.shared values delivered :=
    Engine.formEntries_congr rfl fun f hf =>
      Engine.judgements_atOnce land (hlands f hf) delivered
  have hsettled : ∀ f ∈ (c.engine.atOnce land).fieldNames,
      ((c.engine.atOnce land).callsOf (c.shared.atOnce land) f (values f)).any
        RuleCall.isPending = false := by
    intro f _
    rw [Engine.callsOf_atOnce]
    exact Engine.not_isPending_atOnce land _
  have hresult := (Engine.validateAll_known (Engine.any_isPending_of_settled hsettled)).2
  have hends : (c.atOnce land).FormEnds values delivered _ _ := .at_once hresult
  have hbag := ((h.atOnce land).known hresult delivered).1
  have hpassed := (h.atOnce land).result_iff hends
  refine ⟨_, hresult, hbag.trans hsame, hpassed.trans ?_⟩
  show (c.engine.atOnce land).formEntries (c.shared.atOnce land) values delivered = [] ↔ _
  rw [hsame]

/-! ## In every course -/

theorem Consistent.canonical (h : c.Consistent) : c.Canonical values delivered where
  bag := fun _ _ hends => (h.formEnds hends).1
  result := fun _ _ hends => h.result_iff hends
  ends := fun _ _ hpending hmid => h.isDone_iff hpending hmid
  same := by
    intro shared locale attributes events values' delivered' c' hnames hsay e passed e' passed'
    exact h.same ((consistent_fresh shared locale attributes).run events) hnames hsay
  at_once := fun _ hlands => h.known_atOnce hlands

end Course

end FieldRules
