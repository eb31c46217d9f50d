import FieldRules.Builtin
import FieldRules.Config
import FieldRules.Engine.Job
import FieldRules.Image.Size
import FieldRules.LocaleFile
import FieldRules.Owners

/-!
# A host

A host is a program that uses engines. It names its engines, shares one catalog and one dictionary
among them, keeps the validations whose answers it still waits for, opens gates, and registers
owners. Engines, jobs and registries are told apart by their numbers; a name stands for the engine
that it was last given to.
-/

namespace FieldRules

/-- A job that a host waits for, with the number of its engine. -/
structure Awaited where
  engine : Nat
  job : Job
  /-- The job is done and its result was told. -/
  closed : Bool := false

/-- Owners and the rules that their engines start with. -/
structure Registry where
  owners : Owners := {}
  rules : Table String (List Rule) := []

/-- A program that uses engines. -/
structure Host where
  shared : Shared
  engines : List Engine := []
  names : Table String Nat := []
  jobs : List Awaited := []
  /-- The numbers of the jobs that were started, in that order. -/
  started : List Nat := []
  gates : Gates := []
  probe : Probe := Image.probe
  folder : Folder
  registries : List Registry := [{}]
  registryNames : Table String Nat

namespace Host

/-- The name of the registry that is there from the start. -/
def defaultRegistry : String := "default"

/-- What the engines of a host share at first. -/
def firstShared : Shared := { catalog := Builtin.catalog, dictionary := Dictionary.bundled }

/-- A host that has done nothing yet. -/
def fresh (yaml : YamlReader) : Host where
  shared := firstShared
  folder := { yaml }
  registryNames := [(defaultRegistry, 0)]

/-! ## Engines -/

/-- The number of the engine that a name stands for. -/
def number? (h : Host) (name : String) : Option Nat := Table.get? h.names name

/-- The engine that a name stands for. -/
def engine? (h : Host) (name : String) : Option Engine :=
  (h.number? name).bind fun n => h.engines[n]?

/-- A name that stands for an engine. -/
def nameOf? (h : Host) (number : Nat) : Option String :=
  (h.names.find? fun e => e.2 == number).map (·.1)

/-- Puts an engine in the place of that with a number. -/
def setEngine (h : Host) (number : Nat) (e : Engine) : Host :=
  { h with engines := h.engines.set number e }

/-- Adds an engine, which has no name yet. -/
def addEngine (h : Host) (e : Engine) : Host × Nat :=
  ({ h with engines := h.engines ++ [e] }, h.engines.length)

/-- Gives a name to an engine. -/
def giveName (h : Host) (name : String) (number : Nat) : Host :=
  { h with names := Table.put h.names name number }

/-- The failures of all engines by their names. -/
def bags (h : Host) : Table String (List Entry) :=
  h.names.filterMap fun e => (h.engines[e.2]?).map fun engine => (e.1, engine.bag.entries)

/-! ## Jobs -/

/-- Adds a job of an engine and gives its number. -/
def addJob (h : Host) (engine : Nat) (job : Job) : Host × Nat :=
  ({ h with jobs := h.jobs ++ [{ engine, job }] }, h.jobs.length)

/-- Starts a job with a number, once. -/
def startJob (h : Host) (number : Nat) : Noted Host :=
  match h.jobs[number]? with
  | none => ⟨h, []⟩
  | some a =>
    if a.job.started then ⟨h, []⟩
    else
      let started := a.job.start h.probe
      ⟨{ h with
          jobs := h.jobs.set number { a with job := started.result }
          started := h.started ++ [number] },
        started.notes⟩

/-- Starts jobs in order; the notes of jobs of single fields and of jobs of all fields apart. -/
def startEach (h : Host) : List Nat → Host × List CallNote × List CallNote
  | [] => (h, [], [])
  | n :: ns =>
    let here := h.startJob n
    let (last, single, whole) := startEach here.result ns
    if (h.jobs[n]?).any (·.job.whole) then (last, single, here.notes ++ whole)
    else (last, here.notes ++ single, whole)

/-- Starts jobs in order. What jobs of single fields wait for is looked at before what jobs of all
fields wait for. -/
def startJobs (h : Host) (numbers : List Nat) : Noted Host :=
  let (h, single, whole) := h.startEach numbers
  ⟨h, single ++ whole⟩

/-- Lets a started job go on as far as its answers have come. -/
def advanceJob (h : Host) (number : Nat) : Host :=
  match h.jobs[number]? with
  | none => h
  | some a => match h.engines[a.engine]? with
    | none => h
    | some e =>
      let (e, job) := a.job.advance h.gates h.shared e
      { h with
        engines := h.engines.set a.engine e
        jobs := h.jobs.set number { a with job } }

/-- Closes a job that is done. The job of all fields puts the bag in order. -/
def closeJob (h : Host) (number : Nat) : Host × Option Bool :=
  match h.jobs[number]? with
  | none => (h, none)
  | some a =>
    if a.closed then (h, none)
    else match a.job.result? with
      | none => (h, none)
      | some passed =>
        let engines := if a.job.whole then h.engines.modify a.engine Engine.sortBag else h.engines
        ({ h with engines, jobs := h.jobs.set number { a with closed := true } }, some passed)

/-- Closes jobs in order and tells which were done, with their results. -/
def closeJobs (h : Host) : List Nat → Host × List (Nat × Bool)
  | [] => (h, [])
  | n :: ns =>
    let (h, result) := h.closeJob n
    let (h, results) := closeJobs h ns
    (h, (result.map fun passed => (n, passed)).toList ++ results)

/-- Lets all started jobs go on until nothing can move: every field whose answers have come ends,
in order of the start; then every job that is done is closed, in the same order. -/
def settle (h : Host) : Host × List (Nat × Bool) :=
  let h := h.started.foldl advanceJob h
  h.closeJobs h.started

/-- The results of jobs in the order of a list of numbers. -/
def inOrder (numbers : List Nat) (results : List (Nat × Bool)) : List (Nat × Bool) :=
  numbers.filterMap fun n => results.find? fun r => r.1 == n

/-- Opens a gate, unless it is open already. -/
def openGate (h : Host) (gate : String) (passed : Bool) : Host :=
  { h with gates := h.gates.opened gate passed }

/-! ## Owners -/

/-- The number of the registry that a name stands for; the first one by default. -/
def registryNumber (h : Host) (name : String) : Nat := (Table.get? h.registryNames name).getD 0

/-- The registry that a name stands for. -/
def registry (h : Host) (name : String) : Registry :=
  (h.registries[h.registryNumber name]?).getD {}

/-- Puts other owners into a registry. -/
def setOwners (h : Host) (registry : String) (owners : Owners) : Host :=
  { h with
    registries := h.registries.modify (h.registryNumber registry) fun r => { r with owners } }

/-- Adds a registry under a name. -/
def addRegistry (h : Host) (name : String) (rules : Table String (List Rule)) : Host :=
  { h with
    registries := h.registries ++ [{ rules }]
    registryNames := Table.put h.registryNames name h.registries.length }

/-- Registers an owner, whose engine is made if there is none. The engine gets a name if it has
none yet. -/
def registerOwner (h : Host) (registry owner newName : String) : Host × String × Engine :=
  let r := h.registry registry
  let blank := Engine.ofRules r.rules (.text englishLocale) []
  let (owners, number) := r.owners.register owner h.engines.length
  let h := if (r.owners.get? owner).isSome then h else (h.addEngine blank).1
  let h := h.setOwners registry owners
  let (h, name) := match h.nameOf? number with
    | some name => (h, name)
    | none => (h.giveName newName number, newName)
  (h, name, (h.engines[number]?).getD blank)

end Host

end FieldRules
