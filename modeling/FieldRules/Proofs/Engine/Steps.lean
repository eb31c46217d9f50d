import FieldRules.Proofs.Engine.Move

/-!
# Events are moves

Every event of a course that satisfies the invariant is a list of moves (`step_moves`), so the
invariant holds throughout (`Consistent.run`). The validation of all fields is one move for each
field, in the order of their declaration, and the final sorting if nothing is pending.
-/

namespace FieldRules

/-- The validation that a verdict waits for. -/
def Verdict.pending? : Verdict → Option PendingField
  | .known _ => none
  | .pending p => some p

/-- A verdict is known and says that no rule failed. -/
def Verdict.passed : Verdict → Bool
  | .known passed => passed
  | .pending _ => false

namespace Engine

/-- What became of a validation, as a part of the validation of all fields. -/
def verdictOf : Except Fault Verdict → Verdict
  | .ok v => v
  | .error _ => .known false

theorem sameSetup_validate (e : Engine) (shared : Shared) (field : String) (value extra : Value) :
    SameSetup e (e.validate shared field value extra).1 := by
  cases h : e.asked shared field value extra with
  | undeclared => rw [validate_undeclared h]; exact sameSetup_renew e field
  | refused f => rw [validate_refused h]; exact sameSetup_renew e field
  | calls cs =>
      by_cases hpending : cs.any RuleCall.isPending = true
      · rw [(validate_pending h hpending).1]
        exact sameSetup_renew e field
      · rw [(validate_known h (by simpa using hpending)).1]
        rfl

theorem validateEach_cons (shared : Shared) (values : String → Value) (e : Engine) (n : String)
    (ns : List String) :
    (validateEach shared values e (n :: ns)).1 =
        (validateEach shared values (e.validate shared n (values n)).1 ns).1 ∧
      (validateEach shared values e (n :: ns)).2.result =
        verdictOf (e.validate shared n (values n)).2.result ::
          (validateEach shared values (e.validate shared n (values n)).1 ns).2.result :=
  ⟨rfl, rfl⟩

theorem validateEach_append (shared : Shared) (values : String → Value) (e : Engine)
    (before : List String) (n : String) :
    (validateEach shared values e (before ++ [n])).1 =
      ((validateEach shared values e before).1.validate shared n (values n)).1 := by
  induction before generalizing e with
  | nil => rfl
  | cons m ms ih => exact ih (e.validate shared m (values m)).1

theorem sameSetup_validateEach (shared : Shared) (values : String → Value) (e : Engine)
    (names : List String) : SameSetup e (validateEach shared values e names).1 := by
  induction names generalizing e with
  | nil => exact SameSetup.refl e
  | cons n ns ih =>
      rw [(validateEach_cons shared values e n ns).1]
      exact (sameSetup_validate e shared n (values n) _).trans (ih _)

theorem validateAll_pending {e : Engine} {shared : Shared} {values : String → Value}
    (h : (validateEach shared values e e.fieldNames).2.result.any isPending = true) :
    (e.validateAll shared values).1 = (validateEach shared values e e.fieldNames).1 ∧
      (e.validateAll shared values).2.result =
        .pending (validateEach shared values e e.fieldNames).2.result := by
  simp only [validateAll, h, if_true, and_self]

theorem validateAll_known {e : Engine} {shared : Shared} {values : String → Value}
    (h : (validateEach shared values e e.fieldNames).2.result.any isPending = false) :
    (e.validateAll shared values).1 = (validateEach shared values e e.fieldNames).1.sortBag ∧
      (e.validateAll shared values).2.result =
        .known ((validateEach shared values e e.fieldNames).2.result.all Verdict.passed) := by
  simp only [validateAll, h, Bool.false_eq_true, if_false]
  exact ⟨trivial, rfl⟩

theorem validateAll_of_pending {e : Engine} {shared : Shared} {values : String → Value}
    {verdicts : List Verdict}
    (h : (e.validateAll shared values).2.result = .pending verdicts) :
    (e.validateAll shared values).1 = (validateEach shared values e e.fieldNames).1 ∧
      (validateEach shared values e e.fieldNames).2.result = verdicts := by
  cases hany : (validateEach shared values e e.fieldNames).2.result.any isPending with
  | true =>
      rw [(validateAll_pending hany).2, FormVerdict.pending.injEq] at h
      exact ⟨(validateAll_pending hany).1, h⟩
  | false =>
      rw [(validateAll_known hany).2] at h
      simp at h

theorem validateAll_of_known {e : Engine} {shared : Shared} {values : String → Value}
    {passed : Bool} (h : (e.validateAll shared values).2.result = .known passed) :
    (validateEach shared values e e.fieldNames).2.result.any isPending = false ∧
      (e.validateAll shared values).1 = (validateEach shared values e e.fieldNames).1.sortBag ∧
      (validateEach shared values e e.fieldNames).2.result.all Verdict.passed = passed := by
  cases hany : (validateEach shared values e e.fieldNames).2.result.any isPending with
  | true =>
      rw [(validateAll_pending hany).2] at h
      simp at h
  | false =>
      rw [(validateAll_known hany).2, FormVerdict.known.injEq] at h
      exact ⟨rfl, (validateAll_known hany).1, h⟩

end Engine

namespace Course

/-! ## Jobs that wait -/

theorem waiting?_add_job (c : Course) (job : Job) (j k : Nat) :
    { c with jobs := c.jobs ++ [job] }.waiting? j k =
      if j = c.jobs.length then (job.parts[k]?).bind JobPart.pending? else c.waiting? j k := by
  simp only [waiting?, part?]
  by_cases hj : j = c.jobs.length
  · simp [hj]
  · rw [if_neg hj, List.getElem?_append]
    split
    · rfl
    · rename_i hge
      have hout : c.jobs[j]? = none := List.getElem?_eq_none (by omega)
      have hnone : [job][j - c.jobs.length]? = none := List.getElem?_eq_none (by simp; omega)
      rw [hnone, hout]

theorem part?_of_new_job {c d : Course} {job : Job} (h : d.jobs = c.jobs ++ [job]) (k : Nat) :
    d.part? c.jobs.length k = job.parts[k]? := by
  simp [part?, h]

theorem waiting?_of_new_job (c : Course) (k : Nat) : c.waiting? c.jobs.length k = none := by
  simp [waiting?, part?]

/-- A validation that ends waits no more. -/
theorem waiting?_setPart_ended {c : Course} {job part : Nat} {p : PendingField}
    (h : c.waiting? job part = some p) (ok : Bool) :
    { c with jobs := c.setPart job part (.ended ok) }.waiting? =
      setLive c.waiting? job part none := by
  obtain ⟨old, hold, -⟩ := Option.bind_eq_some_iff.mp h
  funext j k
  by_cases hjk : j = job ∧ k = part
  · obtain ⟨rfl, rfl⟩ := hjk
    rw [setLive_self, waiting?, part?_setPart_self hold]
    rfl
  · rw [setLive_of_ne _ hjk, waiting?, waiting?, part?_setPart_of_ne hjk]

theorem setLive_none_of_free {live : Nat → Nat → Option PendingField} {job part : Nat}
    (h : live job part = none) : setLive live job part none = live := by
  funext j k
  by_cases hjk : j = job ∧ k = part
  · obtain ⟨rfl, rfl⟩ := hjk
    rw [setLive_self, h]
  · rw [setLive_of_ne _ hjk]

/-! ## Validations -/

/-- The view after the validation of a field that becomes a part of a job if it is pending. -/
def View.validate (v : View) (shared : Shared) (field : String) (value extra : Value)
    (job part : Nat) : View where
  engine := (v.engine.validate shared field value extra).1
  latest := Function.update v.latest field
    (.ofAsked (v.engine.messages shared field) job part (v.engine.asked shared field value extra))
  live := setLive v.live job part
    (Engine.verdictOf (v.engine.validate shared field value extra).2.result).pending?

theorem validate_move (v : View) (shared : Shared) (field : String) (value extra : Value)
    {job part : Nat} (hfree : v.live job part = none) :
    Move v (v.validate shared field value extra job part) := by
  unfold View.validate
  cases h : v.engine.asked shared field value extra with
  | undeclared =>
      rw [Engine.validate_undeclared h]
      simp only [Engine.verdictOf, Verdict.pending?, setLive_none_of_free hfree]
      exact Move.skip v field .undeclared (Or.inl rfl)
  | refused f =>
      rw [Engine.validate_refused h]
      simp only [Engine.verdictOf, Verdict.pending?, setLive_none_of_free hfree]
      exact Move.skip v field .refused (Or.inr rfl)
  | calls cs =>
      have hrules := Engine.rules?_of_asked h
      by_cases hpending : cs.any RuleCall.isPending = true
      · obtain ⟨hengine, hresult⟩ := Engine.validate_pending h hpending
        rw [hengine, hresult]
        simp only [Latest.ofAsked, hpending, if_true, Engine.verdictOf, Verdict.pending?]
        exact Move.wait v field cs job part hrules hfree
      · have hknown : cs.any RuleCall.isPending = false := by simpa using hpending
        obtain ⟨hengine, hresult⟩ := Engine.validate_known h hknown
        rw [hengine, hresult]
        simp only [Latest.ofAsked, hknown, Bool.false_eq_true, if_false, Engine.verdictOf,
          Verdict.pending?, setLive_none_of_free hfree]
        have hmove := Move.judge v field cs (settledResults cs) (v.engine.messages shared field)
          hrules (by simp [settledResults])
        simpa [replaceEntries, Engine.renew] using hmove

/-- The view after the validation of some fields, the parts of a job from `part` on. -/
def View.validateEach (v : View) (shared : Shared) (values : String → Value) (names : List String)
    (job part : Nat) : View where
  engine := (Engine.validateEach shared values v.engine names).1
  latest f :=
    if f ∈ names then
      .ofAsked (v.engine.messages shared f) job (part + names.idxOf f)
        (v.engine.asked shared f (values f) (.list []))
    else v.latest f
  live j k :=
    if j = job ∧ part ≤ k then
      ((Engine.validateEach shared values v.engine names).2.result[k - part]?).bind
        Verdict.pending?
    else v.live j k

/-- The validation of some fields is that of the first and then that of the others. -/
theorem validateEach_cons_view (v : View) (shared : Shared) (values : String → Value) {n : String}
    {ns : List String} (hn : n ∉ ns) (job part : Nat) :
    v.validateEach shared values (n :: ns) job part =
      (v.validate shared n (values n) (.list []) job part).validateEach shared values ns job
        (part + 1) := by
  have hsetup := Engine.sameSetup_validate v.engine shared n (values n) (.list [])
  unfold View.validateEach View.validate
  simp only [View.mk.injEq]
  refine ⟨rfl, ?_, ?_⟩
  · funext f
    rw [hsetup.messages, hsetup.asked]
    by_cases hf : f = n
    · subst hf
      simp [hn]
    · rw [Function.update_of_ne hf, List.idxOf_cons_ne ns (Ne.symm hf)]
      simp only [List.mem_cons, hf, false_or]
      rw [show part + (ns.idxOf f).succ = part + 1 + ns.idxOf f by omega]
  · -- The first field takes the part `part`, the others take the parts after it.
    funext j k
    by_cases hj : j = job
    · subst hj
      rcases Nat.lt_trichotomy k part with hk | hk | hk
      · have hne : ¬ (j = j ∧ k = part) := by omega
        rw [if_neg (by omega), if_neg (by omega), setLive_of_ne _ hne]
      · subst hk
        rw [if_pos (by omega), if_neg (by omega), Nat.sub_self, setLive_self,
          (Engine.validateEach_cons shared values v.engine n ns).2]
        rfl
      · rw [if_pos (by omega), if_pos (by omega),
          (Engine.validateEach_cons shared values v.engine n ns).2,
          show k - part = (k - (part + 1)) + 1 by omega, List.getElem?_cons_succ]
    · have hne : ¬ (j = job ∧ k = part) := fun h => hj h.1
      simp only [hj, false_and, if_false, setLive_of_ne _ hne]

theorem validateEach_moves (shared : Shared) (values : String → Value) (job : Nat)
    {names : List String} (hnodup : names.Nodup) (v : View) {part : Nat}
    (hfree : ∀ k, part ≤ k → v.live job k = none) :
    Moves v (v.validateEach shared values names job part) := by
  induction names generalizing v part with
  | nil =>
      have hview : v.validateEach shared values [] job part = v := by
        unfold View.validateEach
        have hlive : (fun j k => if j = job ∧ part ≤ k then
            ((Engine.validateEach shared values v.engine []).2.result[k - part]?).bind
              Verdict.pending? else v.live j k) = v.live := by
          funext j k
          split
          · rename_i h
            rw [h.1, hfree k h.2]
            rfl
          · rfl
        rw [hlive]
        rfl
      rw [hview]
  | cons n ns ih =>
      obtain ⟨hn, hns⟩ := List.nodup_cons.mp hnodup
      rw [validateEach_cons_view v shared values hn]
      refine Relation.ReflTransGen.head
        (validate_move v shared n (values n) (.list []) (hfree part (Nat.le_refl part))) ?_
      apply ih hns
      intro k hk
      have hne : ¬ (job = job ∧ k = part) := by omega
      simp only [View.validate, setLive_of_ne _ hne]
      exact hfree k (by omega)

/-- The validation of all fields, but for the final sorting, as moves of a course. -/
theorem validateAll_moves (c : Course) (hnodup : c.engine.fieldNames.Nodup)
    (values : String → Value) :
    Moves c.view (c.view.validateEach c.shared values c.engine.fieldNames c.jobs.length 0) :=
  validateEach_moves c.shared values c.jobs.length hnodup c.view fun k _ => waiting?_of_new_job c k

/-! ## Events -/

theorem Latest.isPending_iff {job part : Nat} {l : Latest} :
    l.isPending job part = true ↔ ∃ calls, l = .pending job part calls := by
  cases l <;> simp [Latest.isPending]

/-- The generation tells whether a validation is the latest of its field. -/
theorem Tracks.generation_eq_iff {engine : Engine} {latest : String → Latest}
    {live : Nat → Nat → Option PendingField} (h : Tracks engine latest live) {job part : Nat}
    {p : PendingField} (hp : live job part = some p) :
    engine.generation p.field = p.generation ↔ latest p.field = .pending job part p.calls := by
  constructor
  · intro heq
    exact (h.older job part p hp).2 heq.symm
  · intro hlatest
    obtain ⟨q, hq, -, hgen, -⟩ := h.current _ _ _ _ hlatest
    rw [hp, Option.some.injEq] at hq
    subst hq
    exact hgen.symm

theorem Tracks.isPending_iff {engine : Engine} {latest : String → Latest}
    {live : Nat → Nat → Option PendingField} (h : Tracks engine latest live) {job part : Nat}
    {p : PendingField} (hp : live job part = some p) :
    (latest p.field).isPending job part = true ↔ latest p.field = .pending job part p.calls := by
  rw [Latest.isPending_iff]
  constructor
  · rintro ⟨calls, hlatest⟩
    obtain ⟨q, hq, -, -, hcalls⟩ := h.current _ _ _ _ hlatest
    rw [hp, Option.some.injEq] at hq
    rw [hlatest, ← hcalls, hq]
  · intro hlatest
    exact ⟨_, hlatest⟩

theorem view_step_validate (c : Course) (field : String) (value extra : Value) :
    (c.step (.validate field value extra)).view =
      c.view.validate c.shared field value extra c.jobs.length 0 := by
  simp only [step, view, View.validate, View.mk.injEq]
  refine ⟨trivial, rfl, ?_⟩
  funext j k
  rcases hresult : (c.engine.validate c.shared field value extra).2.result with f | verdict
  · simp only [Engine.verdictOf, Verdict.pending?]
    rw [setLive_none_of_free (waiting?_of_new_job c 0)]
    rfl
  · cases verdict with
    | known passed =>
        simp only [Engine.verdictOf, Verdict.pending?]
        rw [setLive_none_of_free (waiting?_of_new_job c 0)]
        rfl
    | pending p =>
        simp only [Engine.verdictOf, Verdict.pending?]
        rw [show (Course.mk c.shared (c.engine.validate c.shared field value extra).1
            (c.jobs ++ [Job.ofField p]) (Function.update c.latest field
              (c.validated field value extra c.jobs.length 0))).waiting? j k =
            { c with jobs := c.jobs ++ [Job.ofField p] }.waiting? j k from rfl,
          waiting?_add_job]
        by_cases hj : j = c.jobs.length
        · subst hj
          cases k with
          | zero => simp [Job.ofField, JobPart.pending?]
          | succ k =>
              have hne : ¬ (c.jobs.length = c.jobs.length ∧ k + 1 = 0) := by omega
              rw [setLive_of_ne _ hne, waiting?_of_new_job]
              simp [Job.ofField]
        · have hne : ¬ (j = c.jobs.length ∧ k = 0) := fun h => hj h.1
          rw [if_neg hj, setLive_of_ne _ hne]

/-- The part that a verdict becomes waits for what the verdict waits for. -/
theorem pending?_part_ofForm (verdicts : List Verdict) (k : Nat) :
    ((Job.ofForm verdicts).parts[k]?).bind JobPart.pending? =
      (verdicts[k]?).bind Verdict.pending? := by
  simp only [Job.ofForm, List.getElem?_map]
  cases verdicts[k]? with
  | none => rfl
  | some v => cases v <;> rfl

theorem view_step_validateAll_pending (c : Course) {values : String → Value}
    (h : (Engine.validateEach c.shared values c.engine c.engine.fieldNames).2.result.any
      Engine.isPending = true) :
    (c.step (.validateAll values)).view =
      c.view.validateEach c.shared values c.engine.fieldNames c.jobs.length 0 := by
  obtain ⟨hengine, hresult⟩ := Engine.validateAll_pending h
  simp only [step, view, View.validateEach, View.mk.injEq, hengine, hresult]
  refine ⟨trivial, ?_, ?_⟩
  · funext f
    simp only [Nat.zero_add]
    rfl
  · funext j k
    have hadd := waiting?_add_job c
      (Job.ofForm (Engine.validateEach c.shared values c.engine c.engine.fieldNames).2.result) j k
    refine hadd.trans ?_
    simp only [Nat.zero_le, and_true, Nat.sub_zero, pending?_part_ofForm]

theorem view_step_validateAll_known (c : Course) {values : String → Value}
    (h : (Engine.validateEach c.shared values c.engine c.engine.fieldNames).2.result.any
      Engine.isPending = false) :
    (c.step (.validateAll values)).view =
      { c.view.validateEach c.shared values c.engine.fieldNames c.jobs.length 0 with
        engine := (c.view.validateEach c.shared values c.engine.fieldNames c.jobs.length
          0).engine.sortBag } := by
  obtain ⟨hengine, hresult⟩ := Engine.validateAll_known h
  simp only [step, view, View.validateEach, View.mk.injEq, hengine, hresult]
  refine ⟨trivial, ?_, ?_⟩
  · funext f
    simp only [Nat.zero_add]
    rfl
  · -- No job is made, and no verdict waits for anything that it could have held.
    funext j k
    rw [List.any_eq_false] at h
    by_cases hj : j = c.jobs.length
    · subst hj
      rw [if_pos (by simp), Nat.sub_zero]
      refine (waiting?_of_new_job c k).trans ?_
      cases hv : (Engine.validateEach c.shared values c.engine
          c.engine.fieldNames).2.result[k]? with
      | none => rfl
      | some v =>
          have hknown := h v (List.mem_of_getElem? hv)
          cases v with
          | known passed => rfl
          | pending p => simp [Engine.isPending] at hknown
    · rw [if_neg (by simp [hj])]
      rfl

theorem step_finish_of_not_waiting {c : Course} {job part : Nat}
    (hp : c.waiting? job part = none) (delivered : Nat → Except Fault Value) :
    c.step (.finish job part delivered) = c := by
  simp only [step, hp]

theorem waiting?_step_finish {c : Course} {job part : Nat} {p : PendingField}
    (hp : c.waiting? job part = some p) (delivered : Nat → Except Fault Value) :
    (c.step (.finish job part delivered)).waiting? = setLive c.waiting? job part none := by
  rw [← waiting?_setPart_ended hp
    (c.engine.finish c.shared p (resultsOf delivered p.calls)).2]
  simp only [step, hp]
  rfl

/-- A validation that is the latest of its field ends: its failures are recorded with the messages
of now. -/
theorem step_finish_latest {c : Course} (h : c.view.Tracks) {job part : Nat} {p : PendingField}
    (hp : c.waiting? job part = some p) (hlatest : c.latest p.field = .pending job part p.calls)
    (delivered : Nat → Except Fault Value) :
    c.step (.finish job part delivered) =
      { c with
        engine := replaceEntries c.engine p.field (entriesFor p.field
          (c.engine.messages c.shared p.field) p.calls (resultsOf delivered p.calls))
        jobs := c.setPart job part (.ended ((resultsOf delivered p.calls).all id))
        latest := Function.update c.latest p.field (.recorded p.calls
          (resultsOf delivered p.calls) (c.engine.messages c.shared p.field)) } := by
  have hgen : c.engine.generation p.field = p.generation := (h.generation_eq_iff hp).mpr hlatest
  have hpending : (c.latest p.field).isPending job part = true := (h.isPending_iff hp).mpr hlatest
  simp only [step, hp, Engine.finish_current hgen, hpending, if_true]
  rfl

/-- A validation that is not the latest of its field ends: its result is told and nothing else
happens. -/
theorem step_finish_older {c : Course} (h : c.view.Tracks) {job part : Nat} {p : PendingField}
    (hp : c.waiting? job part = some p) (hlatest : c.latest p.field ≠ .pending job part p.calls)
    (delivered : Nat → Except Fault Value) :
    c.step (.finish job part delivered) =
      { c with jobs := c.setPart job part (.ended ((resultsOf delivered p.calls).all id)) } := by
  have hgen : c.engine.generation p.field ≠ p.generation :=
    mt (h.generation_eq_iff hp).mp hlatest
  have hpending : (c.latest p.field).isPending job part = false := by
    rw [Bool.eq_false_iff]
    exact mt (h.isPending_iff hp).mp hlatest
  simp only [step, hp, Engine.finish_stale hgen, hpending, Bool.false_eq_true, if_false]

theorem step_close_of_done {c : Course} {job : Nat} (h : c.isDone job = true) :
    c.step (.close job) = { c with engine := c.engine.sortBag } := by
  simp only [step, h, if_true]

theorem step_close_of_not_done {c : Course} {job : Nat} (h : ¬ c.isDone job = true) :
    c.step (.close job) = c := by
  simp only [step, h, Bool.false_eq_true, if_false]

theorem step_moves {c : Course} (h : c.view.Tracks) (hnodup : c.engine.fieldNames.Nodup)
    (event : Event) : Moves c.view (c.step event).view := by
  cases event with
  | attach field rules => exact .single (Move.attach c.view field rules)
  | detach field => exact .single (Move.detach c.view field)
  | validate field value extra =>
      rw [view_step_validate]
      exact .single (validate_move c.view c.shared field value extra (waiting?_of_new_job c 0))
  | validateAll values =>
      have hmoves := validateAll_moves c hnodup values
      cases hany : (Engine.validateEach c.shared values c.engine
          c.engine.fieldNames).2.result.any Engine.isPending with
      | true => rwa [view_step_validateAll_pending c hany]
      | false =>
          rw [view_step_validateAll_known c hany]
          exact hmoves.tail (Move.sort _)
  | extend name supplied =>
      exact .single (Move.retune c.view c.engine.locale (c.engine.overlay.register name supplied).1)
  | setLocale locale => exact .single (Move.retune c.view locale c.engine.overlay)
  | share shared => exact .refl
  | finish job part delivered =>
      cases hp : c.waiting? job part with
      | none => rw [step_finish_of_not_waiting hp]
      | some p =>
          have hlive := waiting?_setPart_ended hp ((resultsOf delivered p.calls).all id)
          by_cases hlatest : c.latest p.field = .pending job part p.calls
          · have hmove := Move.record c.view job part p (resultsOf delivered p.calls)
              (c.engine.messages c.shared p.field) hp hlatest (by simp)
            rw [step_finish_latest h hp hlatest]
            rw [show c.view.live = c.waiting? from rfl, ← hlive] at hmove
            exact .single hmove
          · have hmove := Move.drop c.view job part p hp hlatest
            rw [step_finish_older h hp hlatest]
            rw [show c.view.live = c.waiting? from rfl, ← hlive] at hmove
            exact .single hmove
  | close job =>
      by_cases hdone : c.isDone job = true
      · rw [step_close_of_done hdone]
        exact .single (Move.sort c.view)
      · rw [step_close_of_not_done hdone]

/-! ## Runs -/

theorem Move.nodup {v w : View} (hmove : Move v w) (h : v.engine.fieldNames.Nodup) :
    w.engine.fieldNames.Nodup := by
  cases hmove with
  | attach field rules => exact Table.nodup_keys_put h field rules
  | detach field => exact Table.nodup_keys_remove h field
  | _ => exact h

theorem Moves.nodup {v w : View} (hmoves : Moves v w) (h : v.engine.fieldNames.Nodup) :
    w.engine.fieldNames.Nodup := by
  induction hmoves with
  | refl => exact h
  | tail _ hmove ih => exact hmove.nodup ih

/-- The invariant of a course: its parts agree, and every field is declared once. -/
structure Consistent (c : Course) : Prop where
  tracks : c.view.Tracks
  nodup : c.engine.fieldNames.Nodup

theorem consistent_fresh (shared : Shared) (locale : Key) (attributes : Table String String) :
    (fresh shared locale attributes).Consistent where
  tracks := tracks_fresh shared locale attributes
  nodup := List.nodup_nil

theorem Consistent.step {c : Course} (h : c.Consistent) (event : Event) :
    (c.step event).Consistent where
  tracks := h.tracks.moves (step_moves h.tracks h.nodup event)
  nodup := Moves.nodup (step_moves h.tracks h.nodup event) h.nodup

theorem Consistent.run {c : Course} (h : c.Consistent) (events : List Event) :
    (c.run events).Consistent :=
  run_induction (fun _ event hc => hc.step event) h events

end Course

end FieldRules
