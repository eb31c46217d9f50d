import FieldRules.Proofs.Engine.Steps
import Mathlib.Data.List.Induction

/-!
# The generations of a field

Whether a pending validation is recorded when it ends depends on two numbers only: the generation that it
was given and the one that its field has by then. This tells the latest validation from all others because
no generation comes again (`generations_never_repeat`).

An attachment, a removal or a validation of a field raises its generation by one, and nothing else changes it
(`generation_step`), so over a run the generation counts these steps (`generation_run`). What waits after an
event waited before, or the event validates its field and it is of the generation that this starts
(`waiting?_step`). Hence everything that waits after a run was made by one event of the run (`exists_makes`),
and is of its field's generation as long as no further step bears on the field.
-/

namespace FieldRules

namespace Engine

variable {e : Engine} {shared : Shared} {field : String} {value extra : Value} {p : PendingField}

/-! ## What a generation becomes -/

theorem generation_renew_eq_add (e : Engine) (f g : String) :
    (e.renew f).generation g = e.generation g + if f = g then 1 else 0 := by
  rw [generation_renew]
  split
  · rename_i h
    rw [h]
  · rfl

theorem generation_validate (e : Engine) (shared : Shared) (field : String) (value extra : Value)
    (g : String) :
    (e.validate shared field value extra).1.generation g =
      e.generation g + if field = g then 1 else 0 := by
  have hrenewed := generation_renew_eq_add e field g
  cases h : e.asked shared field value extra with
  | undeclared => rwa [validate_undeclared h]
  | refused f => rwa [validate_refused h]
  | calls cs =>
      cases hpending : cs.any RuleCall.isPending with
      | true => rwa [(validate_pending h hpending).1]
      | false =>
          rw [(validate_known h hpending).1]
          exact hrenewed

/-- The validation of different fields raises the generation of each by one. -/
theorem generation_validateEach (shared : Shared) (values : String → Value) {names : List String}
    (hnodup : names.Nodup) (e : Engine) (g : String) :
    (validateEach shared values e names).1.generation g =
      e.generation g + if g ∈ names then 1 else 0 := by
  induction names generalizing e with
  | nil => simp [validateEach]
  | cons n ns ih =>
      obtain ⟨hn, hns⟩ := List.nodup_cons.mp hnodup
      rw [(validateEach_cons shared values e n ns).1, ih hns, generation_validate]
      by_cases hg : n = g
      · subst hg
        simp [hn]
      · simp [hg, Ne.symm hg]

theorem generation_validateAll (hnodup : e.fieldNames.Nodup) (shared : Shared)
    (values : String → Value) (g : String) :
    (e.validateAll shared values).1.generation g =
      e.generation g + if g ∈ e.fieldNames then 1 else 0 := by
  have heach := generation_validateEach shared values hnodup e g
  cases hany : (validateEach shared values e e.fieldNames).2.result.any isPending with
  | true => rwa [(validateAll_pending hany).1]
  | false =>
      rw [(validateAll_known hany).1]
      exact heach

theorem generation_finish (e : Engine) (shared : Shared) (p : PendingField) (passed : List Bool)
    (g : String) : (e.finish shared p passed).1.generation g = e.generation g := by
  by_cases h : e.generation p.field = p.generation
  · rw [finish_current h]
    rfl
  · rw [finish_stale h]

/-! ## What waits -/

/-- A validation that has to wait is of the generation that it starts. -/
theorem of_pending_validate
    (h : (verdictOf (e.validate shared field value extra).2.result).pending? = some p) :
    p.field = field ∧ p.generation = e.generation field + 1 := by
  cases hasked : e.asked shared field value extra with
  | undeclared =>
      rw [validate_undeclared hasked] at h
      cases h
  | refused f =>
      rw [validate_refused hasked] at h
      cases h
  | calls cs =>
      cases hpending : cs.any RuleCall.isPending with
      | true =>
          rw [(validate_pending hasked hpending).2] at h
          obtain rfl := Option.some.inj h
          exact ⟨rfl, rfl⟩
      | false =>
          rw [(validate_known hasked hpending).2] at h
          cases h

/-- So is each of the validations of different fields. -/
theorem of_pending_validateEach (shared : Shared) (values : String → Value) {names : List String}
    (hnodup : names.Nodup) (e : Engine) {k : Nat}
    (h : ((validateEach shared values e names).2.result[k]?).bind Verdict.pending? = some p) :
    names[k]? = some p.field ∧ p.generation = e.generation p.field + 1 := by
  induction names generalizing e k with
  | nil => simp [validateEach] at h
  | cons n ns ih =>
      obtain ⟨hn, hns⟩ := List.nodup_cons.mp hnodup
      rw [(validateEach_cons shared values e n ns).2] at h
      cases k with
      | zero =>
          obtain ⟨hfield, hgeneration⟩ := of_pending_validate h
          rw [hfield]
          exact ⟨rfl, hgeneration⟩
      | succ k =>
          obtain ⟨hfield, hgeneration⟩ := ih hns _ h
          -- The field comes later in the list, so the first validation was of another one.
          have hne : n ≠ p.field := by
            rintro rfl
            exact hn (List.mem_of_getElem? hfield)
          rw [generation_validate, if_neg hne] at hgeneration
          exact ⟨hfield, hgeneration⟩

end Engine

namespace Course

/-! ## Steps that bear on a field -/

/-- The event validates a field, alone or with all others. -/
def validates (c : Course) (f : String) : Event → Bool
  | .validate g _ _ => g == f
  | .validateAll _ => decide (f ∈ c.engine.fieldNames)
  | _ => false

/-- The event attaches, removes or validates a field. -/
def renews (c : Course) (f : String) : Event → Bool
  | .attach g _ => g == f
  | .detach g => g == f
  | event => c.validates f event

/-- How many events of a run attach, remove or validate a field. -/
def renewals (f : String) : Course → List Event → Nat
  | _, [] => 0
  | c, event :: events => (if c.renews f event then 1 else 0) + renewals f (c.step event) events

/-- With the event a validation begins to wait, as a part of a job. -/
def Makes (c : Course) (event : Event) (job part : Nat) (p : PendingField) : Prop :=
  c.waiting? job part = none ∧ (c.step event).waiting? job part = some p

variable {c : Course} {event : Event} {job part : Nat} {p : PendingField} {f : String}

theorem renews_of_validates (h : c.validates f event = true) : c.renews f event = true := by
  cases event with
  | attach g rules => cases h
  | detach g => cases h
  | _ => exact h

/-- An attachment, a removal or a validation of a field raises its generation by one, and nothing else
changes it. -/
theorem generation_step (hnodup : c.engine.fieldNames.Nodup) (event : Event) (f : String) :
    (c.step event).engine.generation f =
      c.engine.generation f + if c.renews f event then 1 else 0 := by
  cases event with
  | attach g rules =>
      simp only [renews, beq_iff_eq]
      exact Engine.generation_renew_eq_add
        { c.engine with fields := Table.put c.engine.fields g rules } g f
  | detach g =>
      simp only [renews, beq_iff_eq]
      exact Engine.generation_renew_eq_add
        { c.engine with fields := Table.remove c.engine.fields g } g f
  | validate g value extra =>
      simp only [renews, validates, beq_iff_eq]
      exact Engine.generation_validate c.engine c.shared g value extra f
  | validateAll values =>
      simp only [renews, validates, decide_eq_true_eq]
      exact Engine.generation_validateAll hnodup c.shared values f
  | finish job part delivered =>
      cases hp : c.waiting? job part with
      | none =>
          rw [step_finish_of_not_waiting hp]
          rfl
      | some p =>
          simp only [step, hp]
          exact Engine.generation_finish c.engine c.shared p _ f
  | close job =>
      rw [step]
      split <;> rfl
  | extend name supplied => rfl
  | setLocale locale => rfl
  | share shared => rfl

/-! ## Runs -/

theorem renewals_append (f : String) (c : Course) (events more : List Event) :
    renewals f c (events ++ more) = renewals f c events + renewals f (c.run events) more := by
  induction events generalizing c with
  | nil => rw [List.nil_append, renewals, Nat.zero_add, run_nil]
  | cons event events ih => rw [List.cons_append, renewals, renewals, run_cons, ih, Nat.add_assoc]

theorem run_concat (c : Course) (events : List Event) (event : Event) :
    c.run (events ++ [event]) = (c.run events).step event := by
  rw [run_append, run_cons, run_nil]

/-- Over a run the generation of a field counts the steps that bear on it. -/
theorem generation_run (h : c.Consistent) (events : List Event) (f : String) :
    (c.run events).engine.generation f = c.engine.generation f + renewals f c events := by
  induction events generalizing c with
  | nil => rfl
  | cons event events ih =>
      rw [run_cons, ih (h.step event), generation_step h.nodup, renewals, Nat.add_assoc]

/-- Of two validations of a field the later one starts a higher generation. -/
theorem generation_lt (h : c.Consistent) (between : List Event)
    (hevent : (c.run between).validates f event = true) :
    c.engine.generation f < (c.run (between ++ [event])).engine.generation f := by
  have hcount := generation_run h (between ++ [event]) f
  have hone : renewals f (c.run between) [event] = 1 := by
    rw [renewals, if_pos (renews_of_validates hevent), renewals]
  rw [renewals_append, hone] at hcount
  omega

/-! ## What waits -/

theorem waiting?_step_validate (c : Course) (field : String) (value extra : Value) :
    (c.step (.validate field value extra)).waiting? =
      setLive c.waiting? c.jobs.length 0
        (Engine.verdictOf (c.engine.validate c.shared field value extra).2.result).pending? :=
  congrArg View.live (view_step_validate c field value extra)

theorem waiting?_step_validateAll (c : Course) (values : String → Value) (j k : Nat) :
    (c.step (.validateAll values)).waiting? j k =
      if j = c.jobs.length then
        ((Engine.validateEach c.shared values c.engine c.engine.fieldNames).2.result[k]?).bind
          Verdict.pending?
      else c.waiting? j k := by
  have hlive : (c.step (.validateAll values)).waiting? =
      (c.view.validateEach c.shared values c.engine.fieldNames c.jobs.length 0).live := by
    cases hany : (Engine.validateEach c.shared values c.engine c.engine.fieldNames).2.result.any
        Engine.isPending with
    | true => exact congrArg View.live (view_step_validateAll_pending c hany)
    | false => exact congrArg View.live (view_step_validateAll_known c hany)
  rw [hlive]
  simp only [View.validateEach, Nat.zero_le, and_true, Nat.sub_zero]
  rfl

/-- What waits after an event waited before, or the event validates its field and it is of the generation
that this starts. -/
theorem waiting?_step (hnodup : c.engine.fieldNames.Nodup)
    (h : (c.step event).waiting? job part = some p) :
    c.waiting? job part = some p ∨
      c.waiting? job part = none ∧ c.validates p.field event = true ∧
        p.generation = c.engine.generation p.field + 1 := by
  cases event with
  | validate field value extra =>
      rw [waiting?_step_validate] at h
      by_cases hnew : job = c.jobs.length ∧ part = 0
      · obtain ⟨rfl, rfl⟩ := hnew
        rw [setLive_self] at h
        obtain ⟨rfl, hgeneration⟩ := Engine.of_pending_validate h
        exact Or.inr ⟨waiting?_of_new_job c 0, by simp [validates], hgeneration⟩
      · rw [setLive_of_ne _ hnew] at h
        exact Or.inl h
  | validateAll values =>
      rw [waiting?_step_validateAll] at h
      split at h
      · rename_i hnew
        subst hnew
        obtain ⟨hfield, hgeneration⟩ := Engine.of_pending_validateEach c.shared values hnodup _ h
        have hdeclared := List.mem_of_getElem? hfield
        exact Or.inr ⟨waiting?_of_new_job c part, by simpa [validates] using hdeclared, hgeneration⟩
      · exact Or.inl h
  | finish j k delivered =>
      cases hq : c.waiting? j k with
      | none =>
          rw [step_finish_of_not_waiting hq] at h
          exact Or.inl h
      | some q =>
          -- One validation waits no more, the others wait as they did.
          rw [waiting?_step_finish hq] at h
          by_cases hended : job = j ∧ part = k
          · obtain ⟨rfl, rfl⟩ := hended
            rw [setLive_self] at h
            cases h
          · rw [setLive_of_ne _ hended] at h
            exact Or.inl h
  | close j =>
      rw [step] at h
      split at h <;> exact Or.inl h
  | _ => exact Or.inl h

theorem Makes.validates (h : c.Makes event job part p) (hnodup : c.engine.fieldNames.Nodup) :
    c.validates p.field event = true ∧
      p.generation = (c.step event).engine.generation p.field := by
  rcases waiting?_step hnodup h.2 with hbefore | ⟨-, hvalidates, hgeneration⟩
  · rw [h.1] at hbefore
    cases hbefore
  · rw [generation_step hnodup, if_pos (renews_of_validates hvalidates)]
    exact ⟨hvalidates, hgeneration⟩

/-- Everything that waits after a run began to wait with one of its events. -/
theorem exists_makes (h : c.Consistent) (hnone : ∀ j k, c.waiting? j k = none) (events : List Event)
    (hp : (c.run events).waiting? job part = some p) :
    ∃ before event after, events = before ++ event :: after ∧
      (c.run before).Makes event job part p := by
  induction events using List.reverseRecOn with
  | nil =>
      rw [run_nil, hnone] at hp
      cases hp
  | append_singleton events event ih =>
      rw [run_concat] at hp
      rcases waiting?_step (h.run events).nodup hp with hbefore | ⟨hfree, -, -⟩
      · obtain ⟨before, made, after, rfl, hmakes⟩ := ih hbefore
        exact ⟨before, made, after ++ [event], by simp, hmakes⟩
      · exact ⟨events, event, [], rfl, hfree, hp⟩

/-! ## No generation comes again -/

/-- The generations of the fields, and of the validations that wait, over a run of events. -/
structure NeverRepeats (start : Course) (events : List Event) : Prop where
  /-- Whatever comes next, the generation of a field rises by one if the field is attached, removed or
  validated, and stays as it is otherwise. -/
  rises : ∀ event f, ((start.run events).step event).engine.generation f =
    (start.run events).engine.generation f +
      if (start.run events).renews f event then 1 else 0
  /-- So it tells how often this has happened. -/
  counts : ∀ f, (start.run events).engine.generation f = renewals f start events
  /-- Of two validations of a field the later one starts a higher generation, whatever happens between
  them. -/
  apart : ∀ f before first between second after,
    events = before ++ first :: between ++ second :: after →
    (start.run before).validates f first = true →
    (start.run (before ++ first :: between)).validates f second = true →
    (start.run (before ++ [first])).engine.generation f <
      (start.run (before ++ first :: between ++ [second])).engine.generation f
  /-- Every validation that waits began to wait with one of the events. -/
  made : ∀ job part p, (start.run events).waiting? job part = some p →
    ∃ before event after, events = before ++ event :: after ∧
      (start.run before).Makes event job part p
  /-- That event validates its field and starts the generation that the validation holds. This is the
  field's generation exactly as long as no later event attaches, removes or validates the field. -/
  held : ∀ before event after job part p, events = before ++ event :: after →
    (start.run before).Makes event job part p →
    (start.run before).validates p.field event = true ∧
      p.generation = (start.run (before ++ [event])).engine.generation p.field ∧
      (p.generation = (start.run events).engine.generation p.field ↔
        renewals p.field (start.run (before ++ [event])) after = 0)
  /-- At most one validation of a field waits that holds the field's generation. -/
  one : ∀ job part p job' part' p',
    (start.run events).waiting? job part = some p →
    (start.run events).waiting? job' part' = some p' → p.field = p'.field →
    p.generation = (start.run events).engine.generation p.field →
    p'.generation = (start.run events).engine.generation p'.field →
    job = job' ∧ part = part'

theorem Consistent.neverRepeats (h : c.Consistent) (hgeneration : ∀ f, c.engine.generation f = 0)
    (hnone : ∀ j k, c.waiting? j k = none) (events : List Event) : c.NeverRepeats events where
  rises := fun event f => generation_step (h.run events).nodup event f
  counts := by
    intro f
    rw [generation_run h, hgeneration, Nat.zero_add]
  apart := by
    intro f before first between second after _ _ hsecond
    rw [List.append_cons, run_append] at hsecond
    have hlt := generation_lt (h.run (before ++ [first])) between hsecond
    rwa [← run_append, ← List.append_assoc, ← List.append_cons] at hlt
  made := fun _ _ _ hp => exists_makes h hnone events hp
  held := by
    rintro before event after job part p rfl hmakes
    obtain ⟨hvalidates, hmade⟩ := hmakes.validates (h.run before).nodup
    rw [← run_concat] at hmade
    refine ⟨hvalidates, hmade, ?_⟩
    have hafter := generation_run (h.run (before ++ [event])) after p.field
    rw [← run_append, ← List.append_cons] at hafter
    omega
  one := by
    intro job part p job' part' p' hp hp' hfield hcurrent hcurrent'
    have htracks := (h.run events).tracks
    -- The latest step of the field is pending as each of the two parts.
    have hlatest := (htracks.generation_eq_iff hp).mp hcurrent.symm
    have hlatest' := (htracks.generation_eq_iff hp').mp hcurrent'.symm
    rw [← hfield, hlatest, Latest.pending.injEq] at hlatest'
    exact ⟨hlatest'.1, hlatest'.2.1⟩

/-- The generations of an engine never repeat, whatever happens to it. -/
theorem generations_never_repeat (shared : Shared) (locale : Key) (attributes : Table String String)
    (events : List Event) : (fresh shared locale attributes).NeverRepeats events :=
  (consistent_fresh shared locale attributes).neverRepeats (fun _ => rfl) (fun _ _ => rfl) events

/-- A field with a rule that puts its answer off is validated, taken away, attached and validated again. -/
def reattachedEvents : List Event := [
  .extend "slow" (.predicate fun _ _ => ⟨.later (.gate "g"), []⟩),
  .attach "mail" (Rule.readAll "slow"), .validate "mail" .null (.list []), .detach "mail",
  .attach "mail" (Rule.readAll "slow"), .validateAll fun _ => .null]

/-- Both validations wait, each with the generation that it was given, and the field has that of the second:
five steps have borne on it. -/
theorem generations_never_repeat_reattached :
    let start := fresh ⟨{}, Dictionary.cleared⟩ (.text "en") []
    let c := start.run reattachedEvents
    c.engine.generation "mail" = 5 ∧ renewals "mail" start reattachedEvents = 5 ∧
      (c.waiting? 0 0).map (·.generation) = some 2 ∧ (c.waiting? 1 0).map (·.generation) = some 5 := by
  intro start c
  have hnever := generations_never_repeat ⟨{}, Dictionary.cleared⟩ (.text "en") [] reattachedEvents
  have hgeneration : c.engine.generation "mail" = 5 := by decide +kernel
  have hcount : c.engine.generation "mail" = renewals "mail" start reattachedEvents :=
    hnever.counts "mail"
  exact ⟨hgeneration, hcount ▸ hgeneration, by decide +kernel, by decide +kernel⟩

end Course

end FieldRules
