import FieldRules.Definition
import FieldRules.Rule

/-!
# Dispatch

The rules of a field are called on a value one after the other, every one of them, whatever the
others answer. A call is settled at once or pending: a fault and an unknown name are settled as
failed. Pending calls are settled together later; each keeps its place.
-/

namespace FieldRules

/-- What is known of a call. -/
inductive Outcome where
  | settled (passed : Bool)
  | pending (d : Deferred)

/-- One call of a rule. -/
structure RuleCall where
  rule : Rule
  /-- The definition that the name stood for, if it was known. -/
  definition : Option Definition
  /-- The parameters of the rule, then those of the caller. -/
  params : List Value
  outcome : Outcome

/-- Looks a name up. -/
abbrev Resolver := String → Option Definition

/-- Calls a validator and sorts its answer. -/
def invoke (d : Definition) (value : Value) (params : List Value) : Noted Outcome :=
  let reply := d.validate value params
  let outcome := match reply.result with
    | .now v => .settled v.truthy
    | .later later => .pending later
    | .fault _ => .settled false
  ⟨outcome, reply.notes⟩

/-- The parameters a rule is called with. -/
def callParams (rule : Rule) (extra : List Value) : List Value := rule.params.map .text ++ extra

/-- Calls one rule. -/
def callRule (resolve : Resolver) (value : Value) (extra : List Value) (rule : Rule) :
    Noted RuleCall :=
  let params := callParams rule extra
  match resolve rule.name with
  | none => ⟨{ rule, definition := none, params, outcome := .settled false }, []⟩
  | some d =>
    let answer := invoke d value params
    ⟨{ rule, definition := some d, params, outcome := answer.result }, answer.notes⟩

/-- Calls every rule in order. -/
def dispatch (resolve : Resolver) (value : Value) (extra : List Value) (rules : List Rule) :
    Noted (List RuleCall) :=
  let calls := rules.map (callRule resolve value extra)
  ⟨calls.map (·.result), calls.flatMap (·.notes)⟩

/-- The parameters that a caller gives as a value whose members they are. A value without members is
refused once there is a rule to call. -/
def extraParams (rules : List Rule) (extra : Value) : Except Fault (List Value) :=
  if rules.isEmpty then .ok [] else extra.members?.elim (.error .wrongKind) .ok

/-- A call waits for something. -/
def RuleCall.isPending (c : RuleCall) : Bool :=
  match c.outcome with
  | .pending _ => true
  | .settled _ => false

/-- What is known of a call after what it waits for was started. -/
inductive Progress where
  | known (passed : Bool)
  /-- The call was put off, and what it waited for came as soon as it was started. -/
  | landed (passed : Bool)
  /-- Waits for a gate. -/
  | waits (gate : String)
deriving Repr, DecidableEq

/-- A result that was put off counts as passed if it came and is true. -/
def passedBy : Except Fault Value → Bool
  | .ok v => v.truthy
  | .error _ => false

/-- Starts what a call waits for. -/
def Outcome.start (probe : Probe) : Outcome → Noted Progress
  | .settled passed => ⟨.known passed, []⟩
  | .pending (.gate g) => ⟨.waits g, []⟩
  | .pending (.task run) =>
    let done := run probe
    ⟨.landed (passedBy done.result), done.notes⟩

/-- Starts what calls wait for, in order. -/
def startAll (probe : Probe) (calls : List RuleCall) : Noted (List Progress) :=
  let started := calls.map fun c => c.outcome.start probe
  ⟨started.map (·.result), started.flatMap (·.notes)⟩

/-- The gates that were opened, each with whether that counts as passed. -/
abbrev Gates := Table String Bool

/-- Opens a gate, unless it is open already. -/
def Gates.opened (gates : Gates) (gate : String) (passed : Bool) : Gates :=
  if Table.has gates gate then gates else Table.put gates gate passed

/-! ## Joining -/

/-- Puts results that come one after the other between those that are known: what is not known takes
the next of them. If they run out there is no answer. -/
def rejoin {α : Type} (known? : α → Option Bool) : List α → List Bool → Option (List Bool)
  | [], _ => some []
  | x :: xs, awaited => match known? x, awaited with
    | some passed, _ => (rejoin known? xs awaited).map (passed :: ·)
    | none, passed :: later => (rejoin known? xs later).map (passed :: ·)
    | none, [] => none

/-- Waits for all that is not known, and puts the results back between those that are, once every one
has come. -/
def join? {α : Type} (known? result? : α → Option Bool) (xs : List α) : Option (List Bool) :=
  ((xs.filter fun x => (known? x).isNone).mapM result?).bind (rejoin known? xs)

/-- The result of a call that was not put off. -/
def Progress.known? : Progress → Option Bool
  | .known passed => some passed
  | _ => none

/-- The result of a call, if what it waits for has come. -/
def Progress.passed? (gates : Gates) : Progress → Option Bool
  | .known passed => some passed
  | .landed passed => some passed
  | .waits g => Table.get? gates g

/-- The results of all calls in their places, once every one has come. -/
def settle? (gates : Gates) (calls : List Progress) : Option (List Bool) :=
  join? Progress.known? (Progress.passed? gates) calls

end FieldRules
