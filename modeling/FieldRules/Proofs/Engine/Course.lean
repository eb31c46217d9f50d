import FieldRules.Engine.Job
import FieldRules.Proofs.Engine.Validation
import Mathlib.Logic.Function.Basic

/-!
# The course of an engine

A course is what becomes of one engine while its fields are attached, detached and validated, while
pending validations end in any order, and while the locale, the overlay and what all engines share
are changed at will. Every answer that was put off may come to any value or fault, at any time.

Besides the engine a course keeps, for each field, the latest of the steps that bear on it: an
attachment, a removal or a validation, and of a validation what has become of it. This part is
history only, no step looks at it.

An engine with rules is one that had them attached one after the other (`run_attach`), so runs from
a fresh course are all runs of all engines. Whatever a host does, each of its engines goes through a
course (`Host.run_followed`).
-/

namespace FieldRules

/-- The latest step that bears on a field. -/
inductive Latest where
  /-- There was none. -/
  | none
  | attached
  | detached
  /-- The field was validated while it was not declared. -/
  | undeclared
  /-- The field was validated with parameters that were refused. -/
  | refused
  /-- The field was validated and the answers are awaited, as a part of a job. -/
  | pending (job part : Nat) (calls : List RuleCall)
  /-- The field was validated and the results were recorded, with the messages of that moment. -/
  | recorded (calls : List RuleCall) (passed : List Bool) (message : RuleCall → String)

namespace Latest

/-- The entries that a field is to have. -/
def entries (field : String) : Latest → List Entry
  | recorded calls passed message => entriesFor field message calls passed
  | _ => []

/-- It is a validation that is pending as this part of a job. -/
def isPending (job part : Nat) : Latest → Bool
  | pending j k _ => j == job && k == part
  | _ => false

/-- The calls of a validation of declared rules. -/
def calls? : Latest → Option (List RuleCall)
  | pending _ _ calls => some calls
  | recorded calls _ _ => some calls
  | _ => Option.none

/-- A validation as it is made, given the part of a job that it becomes if it is pending. -/
def ofAsked (message : RuleCall → String) (job part : Nat) : Engine.Asked → Latest
  | .undeclared => undeclared
  | .refused _ => refused
  | .calls cs =>
    if cs.any RuleCall.isPending then pending job part cs
    else recorded cs (settledResults cs) message

end Latest

/-- An engine, what it shares with others, its jobs, and the latest step that bears on each
field. -/
structure Course where
  shared : Shared
  engine : Engine
  jobs : List Job := []
  latest : String → Latest := fun _ => .none

/-- The validation that a part of a job waits for. -/
def JobPart.pending? : JobPart → Option PendingField
  | .known _ => none
  | .ended _ => none
  | .waiting p => some p
  | .running p _ => some p

namespace Course

/-- What can happen in a course. -/
inductive Event where
  | attach (field : String) (rules : List Rule)
  | detach (field : String)
  | validate (field : String) (value extra : Value)
  | validateAll (values : String → Value)
  /-- A validator is registered with the engine. -/
  | extend (name : String) (supplied : Supplied)
  | setLocale (locale : Key)
  /-- The catalog or the dictionary becomes another one. -/
  | share (shared : Shared)
  /-- The answers of a part of a job have come, for each call that was put off as `delivered`
  tells, and its validation ends. -/
  | finish (job part : Nat) (delivered : Nat → Except Fault Value)
  /-- A validation of all fields whose parts have ended puts the bag in order. -/
  | close (job : Nat)

/-- The course of an engine without rules, before anything happened. -/
def fresh (shared : Shared) (locale : Key) (attributes : Table String String) : Course where
  shared
  engine := { locale, attributes }

/-- A part of a job. -/
def part? (c : Course) (job part : Nat) : Option JobPart :=
  (c.jobs[job]?).bind fun j => j.parts[part]?

/-- The validation that a part of a job waits for. -/
def waiting? (c : Course) (job part : Nat) : Option PendingField :=
  (c.part? job part).bind JobPart.pending?

/-- Puts another part in the place of one. -/
def setPart (c : Course) (job part : Nat) (new : JobPart) : List Job :=
  c.jobs.modify job fun j => { j with parts := j.parts.set part new }

/-- The result of a job, once all its parts have ended. -/
def result? (c : Course) (job : Nat) : Option Bool :=
  (c.jobs[job]?).bind fun j => (j.parts.mapM Job.endedPart?).map fun passed => passed.all id

/-- A job is a validation of all fields and has ended. -/
def isDone (c : Course) (job : Nat) : Bool :=
  (c.jobs[job]?).any (·.whole) && (c.result? job).isSome

/-- The validation of a field as it is made now. -/
def validated (c : Course) (field : String) (value extra : Value) (job part : Nat) : Latest :=
  Latest.ofAsked (c.engine.messages c.shared field) job part
    (c.engine.asked c.shared field value extra)

/-- The course after an event. -/
def step (c : Course) : Event → Course
  | .attach field rules =>
    { c with
      engine := c.engine.attach field rules
      latest := Function.update c.latest field .attached }
  | .detach field =>
    { c with
      engine := c.engine.detach field
      latest := Function.update c.latest field .detached }
  | .validate field value extra =>
    let (engine, answer) := c.engine.validate c.shared field value extra
    { c with
      engine
      jobs := match answer.result with
        | .ok (.pending p) => c.jobs ++ [.ofField p]
        | _ => c.jobs
      latest := Function.update c.latest field (c.validated field value extra c.jobs.length 0) }
  | .validateAll values =>
    let (engine, answer) := c.engine.validateAll c.shared values
    { c with
      engine
      jobs := match answer.result with
        | .pending verdicts => c.jobs ++ [.ofForm verdicts]
        | .known _ => c.jobs
      latest := fun field =>
        if field ∈ c.engine.fieldNames then
          c.validated field (values field) (.list []) c.jobs.length
            (c.engine.fieldNames.idxOf field)
        else c.latest field }
  | .extend name supplied => { c with engine := (c.engine.extend name supplied).1 }
  | .setLocale locale => { c with engine := c.engine.setLocale locale }
  | .share shared => { c with shared }
  | .finish job part delivered =>
    match c.waiting? job part with
    | none => c
    | some p =>
      let passed := resultsOf delivered p.calls
      let (engine, ok) := c.engine.finish c.shared p passed
      { c with
        engine
        jobs := c.setPart job part (.ended ok)
        latest :=
          if (c.latest p.field).isPending job part then
            Function.update c.latest p.field
              (.recorded p.calls passed (c.engine.messages c.shared p.field))
          else c.latest }
  | .close job => if c.isDone job then { c with engine := c.engine.sortBag } else c

/-- The course after a list of events. -/
def run (c : Course) (events : List Event) : Course := events.foldl step c

@[simp] theorem run_nil (c : Course) : c.run [] = c := rfl

@[simp] theorem run_cons (c : Course) (event : Event) (events : List Event) :
    c.run (event :: events) = (c.step event).run events := rfl

theorem run_append (c : Course) (events more : List Event) :
    c.run (events ++ more) = (c.run events).run more := List.foldl_append

/-- What every event keeps holds after every run. -/
theorem run_induction {P : Course → Prop} (hstep : ∀ c event, P c → P (c.step event)) {c : Course}
    (hc : P c) (events : List Event) : P (c.run events) := by
  induction events generalizing c with
  | nil => exact hc
  | cons event events ih => exact ih (hstep c event hc)

/-- The engine with some rules comes from a fresh one by attaching them, and nothing else happens. -/
theorem run_attach (shared : Shared) (rules : Table String (List Rule)) (locale : Key)
    (attributes : Table String String) :
    let c := (fresh shared locale attributes).run (rules.map fun r => .attach r.1 r.2)
    c.engine = Engine.ofRules rules locale attributes ∧ c.shared = shared ∧ c.jobs = [] := by
  have hfold : ∀ c : Course, (c.run (rules.map fun r => .attach r.1 r.2)).engine =
        rules.foldl (fun e r => e.attach r.1 r.2) c.engine ∧
      (c.run (rules.map fun r => .attach r.1 r.2)).shared = c.shared ∧
      (c.run (rules.map fun r => .attach r.1 r.2)).jobs = c.jobs := by
    induction rules with
    | nil => intro c; exact ⟨rfl, rfl, rfl⟩
    | cons r rules ih => intro c; exact ih _
  exact hfold _

/-! ## Parts of jobs -/

theorem part?_setPart_self {c : Course} {job part : Nat} {old : JobPart}
    (h : c.part? job part = some old) (new : JobPart) :
    { c with jobs := c.setPart job part new }.part? job part = some new := by
  unfold part? at h
  obtain ⟨j, hj, hpart⟩ := Option.bind_eq_some_iff.mp h
  have hlt : part < j.parts.length := (List.getElem?_eq_some_iff.mp hpart).1
  simp [part?, setPart, hj, hlt]

theorem part?_setPart_of_ne {c : Course} {job part j k : Nat} (h : ¬ (j = job ∧ k = part))
    (new : JobPart) : { c with jobs := c.setPart job part new }.part? j k = c.part? j k := by
  simp only [part?, setPart, List.getElem?_modify]
  by_cases hj : job = j
  · have hk : part ≠ k := fun hk => h ⟨hj.symm, hk.symm⟩
    cases hget : c.jobs[j]? with
    | none => rfl
    | some x => simp [hj, List.getElem?_set_ne hk]
  · simp [hj]

end Course

end FieldRules
