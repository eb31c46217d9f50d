import FieldRules.Engine

/-!
# Jobs

A job is a validation that was pending when it was called, of one field or of all. Nothing of what
it waits for happens before it is started. Once it is started each of its fields ends as soon as
every answer of that field has come; the job is done when all its fields have ended.
-/

namespace FieldRules

/-- A field of a job. -/
inductive JobPart where
  /-- The field was not pending. -/
  | known (passed : Bool)
  | ended (passed : Bool)
  | waiting (p : PendingField)
  | running (p : PendingField) (progress : List Progress)

/-- A pending validation. -/
structure Job where
  parts : List JobPart
  /-- All fields were validated, so the bag is put in order at the end. -/
  whole : Bool
  started : Bool := false

namespace Job

/-- The job of one pending field. -/
def ofField (p : PendingField) : Job := { parts := [.waiting p], whole := false }

/-- The job of a pending validation of all fields. -/
def ofForm (verdicts : List Verdict) : Job where
  whole := true
  parts := verdicts.map fun
    | .known passed => .known passed
    | .pending p => .waiting p

/-- Starts what a part waits for. -/
def startPart (probe : Probe) : JobPart → Noted JobPart
  | .waiting p =>
    let progress := startAll probe p.calls
    ⟨.running p progress.result, progress.notes⟩
  | part => ⟨part, []⟩

/-- Starts a job. -/
def start (j : Job) (probe : Probe) : Noted Job :=
  let parts := j.parts.map (startPart probe)
  ⟨{ j with parts := parts.map (·.result), started := true }, parts.flatMap (·.notes)⟩

/-- The result of a field that was not pending. -/
def knownPart? : JobPart → Option Bool
  | .known passed => some passed
  | _ => none

/-- The result of a part that has ended, or of one that never had to. -/
def endedPart? : JobPart → Option Bool
  | .known passed => some passed
  | .ended passed => some passed
  | _ => none

/-- The results of all fields in their places, once every part has ended. -/
def results? (j : Job) : Option (List Bool) := join? knownPart? endedPart? j.parts

/-- The result of a job whose parts have all ended: whether every field passed. -/
def result? (j : Job) : Option Bool :=
  if j.started then j.results?.map fun passed => passed.all id else none

/-- Ends a part if every answer has come. -/
def endPart (gates : Gates) (shared : Shared) (e : Engine) : JobPart → Engine × JobPart
  | .running p progress => match settle? gates progress with
    | none => (e, .running p progress)
    | some passed =>
      let (e, ok) := e.finish shared p passed
      (e, .ended ok)
  | part => (e, part)

/-- Ends the parts whose answers have come, one after the other. -/
def endParts (gates : Gates) (shared : Shared) : Engine → List JobPart → Engine × List JobPart
  | e, [] => (e, [])
  | e, part :: rest =>
    let (e, part) := endPart gates shared e part
    let (e, rest) := endParts gates shared e rest
    (e, part :: rest)

/-- Lets a job go on as far as its answers have come. -/
def advance (j : Job) (gates : Gates) (shared : Shared) (e : Engine) : Engine × Job :=
  let (e, parts) := endParts gates shared e j.parts
  (e, { j with parts })

end Job

end FieldRules
