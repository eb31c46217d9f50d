import FieldRules.Proofs.Engine.AtOnce

/-!
# Courses whose validators answer otherwise

If an exchange of answers keeps what is known of calls, nothing that happens in a course tells the
difference: every event leads to the same state, but for the validators (`step_exchanged`), and so
does every list of events (`run_exchanged`). An answer that is delivered later may be exchanged as well,
as long as it counts the same.
-/

namespace FieldRules

/-- What is known of calls stays as it is, also of those that are put off. -/
def Exchange.Keeps (x : Exchange) : Prop := ∀ o, x.outcome o = o

/-! ## Everything that holds validators -/

def PendingField.exchanged (x : Exchange) (p : PendingField) : PendingField :=
  { p with calls := p.calls.map (·.exchanged x) }

def Verdict.exchanged (x : Exchange) : Verdict → Verdict
  | .known passed => .known passed
  | .pending p => .pending (p.exchanged x)

def FormVerdict.exchanged (x : Exchange) : FormVerdict → FormVerdict
  | .known passed => .known passed
  | .pending verdicts => .pending (verdicts.map (·.exchanged x))

def JobPart.exchanged (x : Exchange) : JobPart → JobPart
  | .known passed => .known passed
  | .ended passed => .ended passed
  | .waiting p => .waiting (p.exchanged x)
  | .running p progress => .running (p.exchanged x) progress

def Job.exchanged (x : Exchange) (j : Job) : Job :=
  { j with parts := j.parts.map (·.exchanged x) }

def Latest.exchanged (x : Exchange) : Latest → Latest
  | .pending job part calls => .pending job part (calls.map (·.exchanged x))
  | .recorded calls passed message => .recorded (calls.map (·.exchanged x)) passed message
  | l => l

/-- The validator that answers otherwise. -/
def Validator.exchanged (x : Exchange) (v : Validator) : Validator :=
  fun value params => ⟨x.answer (v value params).result, (v value params).notes⟩

/-- What is handed over, with a validator that answers otherwise. -/
def Supplied.exchanged (x : Exchange) : Supplied → Supplied
  | .definition d => .definition (d.exchanged x)
  | .parts validate getMessage messages =>
    .parts (validate.map (Validator.exchanged x)) getMessage messages
  | .predicate v => .predicate (Validator.exchanged x v)
  | .other kind => .other kind

/-- The course with validators that answer otherwise, and always did. -/
def Course.exchanged (x : Exchange) (c : Course) : Course where
  shared := c.shared.exchanged x
  engine := c.engine.exchanged x
  jobs := c.jobs.map (·.exchanged x)
  latest := Latest.exchanged x ∘ c.latest

/-- The event with validators that answer otherwise, and with other answers delivered. -/
def Course.Event.exchanged (x : Exchange) (instead : Except Fault Value → Except Fault Value) :
    Event → Event
  | .extend name supplied => .extend name (supplied.exchanged x)
  | .share shared => .share (shared.exchanged x)
  | .finish job part delivered => .finish job part (instead ∘ delivered)
  | event => event

variable {x : Exchange}

/-! ## Calls -/

section Calls

variable (hx : x.Keeps)
include hx

theorem any_isPending_exchanged (calls : List RuleCall) :
    (calls.map (·.exchanged x)).any RuleCall.isPending = calls.any RuleCall.isPending := by
  rw [List.any_map]
  congr 1
  funext c
  simp only [Function.comp_apply, RuleCall.isPending, RuleCall.exchanged, hx c.outcome]

theorem settledResults_exchanged (calls : List RuleCall) :
    settledResults (calls.map (·.exchanged x)) = settledResults calls := by
  unfold settledResults
  rw [List.map_map]
  apply List.map_congr_left
  intro c _
  simp only [Function.comp_apply, RuleCall.exchanged, hx c.outcome]

/-- Answers that count the same make the same results. -/
theorem resultsOf_exchanged_of_keeps {delivered delivered' : Nat → Except Fault Value}
    (h : ∀ i, passedBy (delivered' i) = passedBy (delivered i)) (calls : List RuleCall) :
    resultsOf delivered' (calls.map (·.exchanged x)) = resultsOf delivered calls := by
  apply resultsOf_exchanged
  intro i c _
  simp only [RuleCall.passedAs, RuleCall.exchanged, hx c.outcome, h]

end Calls

/-! ## Validations -/

namespace Engine

variable (e : Engine) (shared : Shared)

section Validations

variable (hx : x.Keeps)
include hx

theorem validate_exchanged (field : String) (value extra : Value) :
    ((e.exchanged x).validate (shared.exchanged x) field value extra).1 =
        (e.validate shared field value extra).1.exchanged x ∧
      ((e.exchanged x).validate (shared.exchanged x) field value extra).2.result =
        (e.validate shared field value extra).2.result.map (·.exchanged x) := by
  have hasked' := asked_exchanged x e shared field value extra
  cases hasked : e.asked shared field value extra with
  | undeclared =>
      rw [hasked] at hasked'
      rw [validate_undeclared hasked, validate_undeclared hasked']
      exact ⟨rfl, rfl⟩
  | refused f =>
      rw [hasked] at hasked'
      rw [validate_refused hasked, validate_refused hasked']
      exact ⟨rfl, rfl⟩
  | calls cs =>
      rw [hasked] at hasked'
      have hany := any_isPending_exchanged hx cs
      cases hpending : cs.any RuleCall.isPending with
      | true =>
          obtain ⟨hengine, hresult⟩ := validate_pending hasked hpending
          obtain ⟨hengine', hresult'⟩ := validate_pending hasked' (hany.trans hpending)
          rw [hengine, hresult, hengine', hresult']
          exact ⟨rfl, rfl⟩
      | false =>
          obtain ⟨hengine, hresult⟩ := validate_known hasked hpending
          obtain ⟨hengine', hresult'⟩ := validate_known hasked' (hany.trans hpending)
          rw [hengine, hresult, hengine', hresult', settledResults_exchanged hx, messages_exchanged,
            entriesFor_exchanged]
          exact ⟨rfl, rfl⟩

theorem validateEach_exchanged (values : String → Value) (names : List String) :
    (validateEach (shared.exchanged x) values (e.exchanged x) names).1 =
        (validateEach shared values e names).1.exchanged x ∧
      (validateEach (shared.exchanged x) values (e.exchanged x) names).2.result =
        (validateEach shared values e names).2.result.map (·.exchanged x) := by
  induction names generalizing e with
  | nil => exact ⟨rfl, rfl⟩
  | cons n ns ih =>
      obtain ⟨hengine, hresult⟩ := validate_exchanged e shared hx n (values n) (.list [])
      obtain ⟨hrest, hresults⟩ := ih (e.validate shared n (values n)).1
      have hfirst : verdictOf
          (((e.validate shared n (values n)).2.result).map (·.exchanged x)) =
            (verdictOf (e.validate shared n (values n)).2.result).exchanged x := by
        cases (e.validate shared n (values n)).2.result <;> rfl
      rw [(validateEach_cons _ _ _ _ _).1, (validateEach_cons _ _ _ _ _).2,
        (validateEach_cons _ _ _ _ _).1, (validateEach_cons _ _ _ _ _).2, hengine, hresult, hrest,
        hresults, hfirst]
      exact ⟨rfl, rfl⟩

theorem validateAll_exchanged (values : String → Value) :
    ((e.exchanged x).validateAll (shared.exchanged x) values).1 =
        (e.validateAll shared values).1.exchanged x ∧
      ((e.exchanged x).validateAll (shared.exchanged x) values).2.result =
        (e.validateAll shared values).2.result.exchanged x := by
  have hnames : (e.exchanged x).fieldNames = e.fieldNames := rfl
  obtain ⟨hengine, hresults⟩ := validateEach_exchanged e shared hx values e.fieldNames
  rw [← hnames] at hengine hresults
  have hany : (validateEach (shared.exchanged x) values (e.exchanged x)
      (e.exchanged x).fieldNames).2.result.any isPending =
        (validateEach shared values e e.fieldNames).2.result.any isPending := by
    rw [hresults, List.any_map]
    congr 1
    funext v
    cases v <;> rfl
  cases hpending : (validateEach shared values e e.fieldNames).2.result.any isPending with
  | true =>
      obtain ⟨hafter, hverdicts⟩ := validateAll_pending hpending
      obtain ⟨hafter', hverdicts'⟩ := validateAll_pending (hany.trans hpending)
      rw [hafter, hverdicts, hafter', hverdicts', hengine, hresults]
      exact ⟨rfl, rfl⟩
  | false =>
      obtain ⟨hafter, hpassed⟩ := validateAll_known hpending
      obtain ⟨hafter', hpassed'⟩ := validateAll_known (hany.trans hpending)
      have hall : ∀ vs : List Verdict,
          (vs.map (·.exchanged x)).all Verdict.passed = vs.all Verdict.passed := by
        intro vs
        rw [List.all_map]
        congr 1
        funext v
        cases v <;> rfl
      rw [hafter, hpassed, hafter', hpassed', hengine, hresults, hnames, hall]
      exact ⟨rfl, rfl⟩

end Validations

theorem finish_exchanged (x : Exchange) (e : Engine) (shared : Shared) (p : PendingField)
    (passed : List Bool) :
    (e.exchanged x).finish (shared.exchanged x) (p.exchanged x) passed =
      ((e.finish shared p passed).1.exchanged x, (e.finish shared p passed).2) := by
  by_cases hgen : e.generation p.field = p.generation
  · have hgen' : (e.exchanged x).generation (p.exchanged x).field = (p.exchanged x).generation :=
      hgen
    have hentries := entriesFor_exchanged x e shared p.field p.calls passed
    rw [finish_current hgen, finish_current hgen']
    simp only [PendingField.exchanged, messages_exchanged, hentries]
    rfl
  · have hgen' : (e.exchanged x).generation (p.exchanged x).field ≠ (p.exchanged x).generation :=
      hgen
    rw [finish_stale hgen, finish_stale hgen']

end Engine

/-! ## Registrations -/

theorem Table.exchanged_put (t : Table String Definition) (name : String) (d : Definition) :
    exchanged x (put t name d) = put (exchanged x t) name (d.exchanged x) := by
  induction t with
  | nil => rfl
  | cons e t ih =>
      have hcons : ∀ t : Table String Definition,
          exchanged x (e :: t) = (e.1, e.2.exchanged x) :: exchanged x t := fun _ => rfl
      rw [hcons, put, put]
      split
      · rfl
      · rw [hcons, ih]

theorem Definition.ofParts_exchanged (name : String) (validate : Option Validator)
    (getMessage : Option Message) (messages : SuppliedMessages) :
    ofParts name (validate.map (Validator.exchanged x)) getMessage messages =
      (ofParts name validate getMessage messages).map (·.exchanged x) := by
  cases validate with
  | none => rfl
  | some v =>
      unfold ofParts
      simp only [Option.map_some]
      split
      case h_1 hgiven => cases hgiven
      case h_6 =>
        rename_i hgiven _ _
        cases hgiven
        rfl
      case h_7 =>
        rename_i hgiven _ _
        cases hgiven
        split <;> rfl
      -- In the other cases the parts are refused for a reason that has nothing to do with the validator.
      all_goals simp_all only [Except.map]

theorem Definition.normalize_exchanged (name : String) (supplied : Supplied) :
    normalize name (supplied.exchanged x) = (normalize name supplied).map (·.exchanged x) := by
  cases supplied with
  | definition d => rfl
  | parts validate getMessage messages => exact ofParts_exchanged name validate getMessage messages
  | predicate v => rfl
  | other kind => rfl

theorem Engine.extend_exchanged (e : Engine) (name : String) (supplied : Supplied) :
    ((e.exchanged x).extend name (supplied.exchanged x)).1 = (e.extend name supplied).1.exchanged x := by
  simp only [extend, Overlay.register, Definition.normalize_exchanged]
  cases Definition.normalize name supplied with
  | error flaw => rfl
  | ok d =>
      simp only [Except.map, exchanged, Table.exchanged_put]
      rfl

/-! ## Events -/

namespace Course

variable (c : Course)

theorem waiting?_exchanged (job part : Nat) :
    (c.exchanged x).waiting? job part = (c.waiting? job part).map (·.exchanged x) := by
  simp only [waiting?, part?, exchanged, List.getElem?_map]
  cases c.jobs[job]? with
  | none => rfl
  | some j =>
      simp only [Option.map_some, Option.bind_some, Job.exchanged, List.getElem?_map]
      cases j.parts[part]? with
      | none => rfl
      | some k => cases k <;> rfl

theorem setPart_exchanged (job part : Nat) (ok : Bool) :
    (c.exchanged x).setPart job part (.ended ok) =
      (c.setPart job part (.ended ok)).map (·.exchanged x) := by
  apply List.ext_getElem?
  intro i
  simp only [setPart, exchanged, List.getElem?_modify, List.getElem?_map]
  cases c.jobs[i]? with
  | none => rfl
  | some j =>
      by_cases hi : job = i
      · simp only [hi, if_true, Option.map_eq_map, Option.map_some, Job.exchanged, List.map_set]
        rfl
      · simp only [hi, if_false, Option.map_eq_map, Option.map_some]

theorem result?_exchanged (job : Nat) : (c.exchanged x).result? job = c.result? job := by
  have hparts : ∀ parts : List JobPart,
      (parts.map (·.exchanged x)).mapM Job.endedPart? = parts.mapM Job.endedPart? := by
    intro parts
    rw [List.mapM_map]
    congr 1
    funext k
    cases k <;> rfl
  simp only [result?, exchanged, List.getElem?_map]
  cases c.jobs[job]? with
  | none => rfl
  | some j => simp only [Option.map_some, Option.bind_some, Job.exchanged, hparts]

theorem isDone_exchanged (job : Nat) : (c.exchanged x).isDone job = c.isDone job := by
  rw [isDone, isDone, result?_exchanged]
  simp only [exchanged, List.getElem?_map]
  cases c.jobs[job]? <;> rfl

theorem engine_exchanged : (c.exchanged x).engine = c.engine.exchanged x := rfl

theorem shared_exchanged : (c.exchanged x).shared = c.shared.exchanged x := rfl

theorem length_jobs_exchanged : (c.exchanged x).jobs.length = c.jobs.length := List.length_map _

theorem ofForm_exchanged (verdicts : List Verdict) :
    Job.ofForm (verdicts.map (·.exchanged x)) = (Job.ofForm verdicts).exchanged x := by
  simp only [Job.ofForm, Job.exchanged, List.map_map, Job.mk.injEq, and_true]
  apply List.map_congr_left
  intro v _
  cases v <;> rfl

section Events

variable (hx : x.Keeps)
include hx

theorem validated_exchanged (field : String) (value extra : Value) (job part : Nat) :
    (c.exchanged x).validated field value extra job part =
      (c.validated field value extra job part).exchanged x := by
  have hasked := Engine.asked_exchanged x c.engine c.shared field value extra
  simp only [validated, exchanged, hasked, Engine.messages_exchanged]
  cases c.engine.asked c.shared field value extra with
  | undeclared => rfl
  | refused f => rfl
  | calls cs =>
      simp only [Engine.Asked.exchanged, Latest.ofAsked, any_isPending_exchanged hx,
        settledResults_exchanged hx]
      cases cs.any RuleCall.isPending <;> rfl

variable {instead : Except Fault Value → Except Fault Value}
  (hsame : ∀ a, passedBy (instead a) = passedBy a)
include hsame

/-- Nothing that happens in a course tells the difference. -/
theorem step_exchanged (event : Event) :
    (c.exchanged x).step (event.exchanged x instead) = (c.step event).exchanged x := by
  cases event with
  | attach field rules =>
      simp only [Event.exchanged, step, exchanged, Function.comp_update]
      rfl
  | detach field =>
      simp only [Event.exchanged, step, exchanged, Function.comp_update]
      rfl
  | validate field value extra =>
      obtain ⟨hengine, hresult⟩ := Engine.validate_exchanged c.engine c.shared hx field value extra
      simp only [Event.exchanged, step, c.length_jobs_exchanged, validated_exchanged c hx,
        c.engine_exchanged, c.shared_exchanged, hengine, hresult]
      simp only [exchanged, Function.comp_update, mk.injEq, true_and, and_true]
      cases (c.engine.validate c.shared field value extra).2.result with
      | error f => rfl
      | ok verdict =>
          cases verdict with
          | known passed => rfl
          | pending p => simp only [Except.map, Verdict.exchanged, List.map_append]; rfl
  | validateAll values =>
      obtain ⟨hengine, hresult⟩ := Engine.validateAll_exchanged c.engine c.shared hx values
      simp only [Event.exchanged, step, c.length_jobs_exchanged, validated_exchanged c hx,
        c.engine_exchanged, c.shared_exchanged, hengine, hresult]
      simp only [exchanged, mk.injEq, true_and]
      constructor
      · cases (c.engine.validateAll c.shared values).2.result with
        | known passed => rfl
        | pending verdicts =>
            simp only [FormVerdict.exchanged, List.map_append, List.map_cons, List.map_nil,
              ofForm_exchanged]
      · funext field
        simp only [Function.comp_apply]
        have hnames : (c.engine.exchanged x).fieldNames = c.engine.fieldNames := rfl
        rw [hnames]
        split <;> rfl
  | extend name supplied =>
      simp only [Event.exchanged, step, exchanged, Engine.extend_exchanged]
  | setLocale locale => rfl
  | share shared => rfl
  | finish job part delivered =>
      cases hp : c.waiting? job part with
      | none =>
          have hp' : (c.exchanged x).waiting? job part = none := by rw [waiting?_exchanged, hp]; rfl
          rw [Event.exchanged, step_finish_of_not_waiting hp, step_finish_of_not_waiting hp']
      | some p =>
          have hp' : (c.exchanged x).waiting? job part = some (p.exchanged x) := by
            rw [waiting?_exchanged, hp]
            rfl
          have hresults := resultsOf_exchanged_of_keeps hx (fun i => hsame (delivered i)) p.calls
          have hends := Engine.finish_exchanged x c.engine c.shared p (resultsOf delivered p.calls)
          have hpending : (((c.exchanged x).latest p.field).isPending job part) =
              (c.latest p.field).isPending job part := by
            simp only [exchanged, Function.comp_apply]
            cases c.latest p.field <;> rfl
          have hcalls : resultsOf (instead ∘ delivered) (p.exchanged x).calls =
              resultsOf delivered p.calls := hresults
          have hfield : (p.exchanged x).field = p.field := rfl
          simp only [Event.exchanged, step, hp, hp', hcalls, c.engine_exchanged, c.shared_exchanged,
            hends, setPart_exchanged, hfield, hpending, Engine.messages_exchanged]
          simp only [exchanged, mk.injEq, true_and]
          split
          · rw [Function.comp_update]
            rfl
          · rfl
  | close job =>
      simp only [Event.exchanged, step, isDone_exchanged]
      split <;> rfl

/-- Nor does a whole run. -/
theorem run_exchanged (events : List Event) :
    (c.exchanged x).run (events.map (·.exchanged x instead)) = (c.run events).exchanged x := by
  induction events generalizing c with
  | nil => rfl
  | cons event events ih =>
      rw [List.map_cons, run_cons, run_cons, step_exchanged c hx hsame, ih]

end Events

end Course

end FieldRules
