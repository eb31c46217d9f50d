import FieldRules.Bag
import FieldRules.Catalog
import FieldRules.Dispatch

/-!
# The engine

An engine holds the rules of some fields, judges values by them and keeps the failures in a bag.

A validation is known at once unless a rule puts its answer off. Then it is pending, and the
failures are recorded when every answer has come. Every validation, attachment or removal of a
field starts a new generation of the field; a pending validation of an older generation leaves no
trace in the bag. So the bag always shows the latest validation of each field.
-/

namespace FieldRules

/-- What all engines share. -/
structure Shared where
  catalog : Catalog
  dictionary : Dictionary

/-- A field's rules, in order of the fields' declaration, and what is known of their values. -/
structure Engine where
  fields : Table String (List Rule) := []
  bag : Bag := {}
  locale : Key := .text englishLocale
  /-- Names to show in messages in place of the names of fields. -/
  attributes : Table String String := []
  overlay : Overlay := {}
  generations : Table String Nat := []

/-- A validation of a field that waits for answers. -/
structure PendingField where
  field : String
  generation : Nat
  calls : List RuleCall

/-- What a validation of a field comes to. -/
inductive Verdict where
  | known (passed : Bool)
  | pending (p : PendingField)

/-- What a validation of all fields comes to: known, or the verdicts of the fields, some pending. -/
inductive FormVerdict where
  | known (passed : Bool)
  | pending (parts : List Verdict)

namespace Engine

/-! ## Fields and rules -/

/-- The generation of a field; zero before the first. -/
def generation (e : Engine) (field : String) : Nat := (Table.get? e.generations field).getD 0

/-- Starts a new generation of a field and takes its failures out of the bag. -/
def renew (e : Engine) (field : String) : Engine :=
  { e with
    generations := Table.put e.generations field (e.generation field + 1)
    bag := e.bag.remove field }

/-- The rules of a field that is declared. -/
def rules? (e : Engine) (field : String) : Option (List Rule) := Table.get? e.fields field

/-- The rules of a field; none for a field that is not declared. -/
def rulesFor (e : Engine) (field : String) : List Rule := (e.rules? field).getD []

/-- A field is declared. -/
def hasField (e : Engine) (field : String) : Bool := Table.has e.fields field

/-- The declared fields in order. -/
def fieldNames (e : Engine) : List String := Table.keys e.fields

/-- Gives a field its rules, in place of those it had. -/
def attach (e : Engine) (field : String) (rules : List Rule) : Engine :=
  { e with fields := Table.put e.fields field rules }.renew field

/-- Takes a field away. -/
def detach (e : Engine) (field : String) : Engine :=
  { e with fields := Table.remove e.fields field }.renew field

/-- An engine with the rules of some fields, attached one after the other. -/
def ofRules (rules : Table String (List Rule)) (locale : Key) (attributes : Table String String) :
    Engine :=
  rules.foldl (fun e r => e.attach r.1 r.2) { locale, attributes }

/-- Sets the locale of messages to come. -/
def setLocale (e : Engine) (locale : Key) : Engine := { e with locale }

/-- Registers a validator of this engine. -/
def extend (e : Engine) (name : String) (supplied : Supplied) :
    Engine × Except SetupError Definition :=
  let (overlay, result) := e.overlay.register name supplied
  ({ e with overlay }, result)

/-! ## Recording failures -/

/-- The name of a field in messages. -/
def displayName (e : Engine) (field : String) : String :=
  (Table.get? e.attributes field).getD field

/-- The message for a rule whose name is not known. -/
def unknownRuleMessage (display rule : String) : String :=
  "The " ++ display ++ " field uses an unknown rule '" ++ rule ++ "'."

/-- The message for a failed call. -/
def messageFor (e : Engine) (shared : Shared) (display : String) (c : RuleCall) : String :=
  match c.definition with
  | none => unknownRuleMessage display c.rule.name
  | some d => d.resolveMessage shared.dictionary display c.params e.locale

/-- The entries of the calls that failed. -/
def failures (e : Engine) (shared : Shared) (field : String) (calls : List RuleCall)
    (passed : List Bool) : List Entry :=
  (calls.zip passed).filterMap fun (c, ok) =>
    if ok then none
    else some
      { field, message := e.messageFor shared (e.displayName field) c, rule := some c.rule.name }

/-- Adds the failures of a validation to the bag and tells whether there was none. -/
def record (e : Engine) (shared : Shared) (field : String) (calls : List RuleCall)
    (passed : List Bool) : Engine × Bool :=
  ({ e with bag := (e.failures shared field calls passed).foldl Bag.add e.bag }, passed.all id)

/-! ## Validation -/

/-- Validates one value, with parameters of the caller after those of each rule. -/
def validate (e : Engine) (shared : Shared) (field : String) (value : Value)
    (extra : Value := .list []) : Engine × Noted (Except Fault Verdict) :=
  let e := e.renew field
  match e.rules? field with
  | none => (e, ⟨.ok (.known true), []⟩)
  | some rules =>
    match extraParams rules (if extra.truthy then extra else .list []) with
    | .error f => (e, ⟨.error f, []⟩)
    | .ok params =>
      let calls := dispatch (e.overlay.resolve shared.catalog) value params rules
      if calls.result.any RuleCall.isPending then
        let pending := { field, generation := e.generation field, calls := calls.result }
        (e, ⟨.ok (.pending pending), calls.notes⟩)
      else
        let passed := calls.result.map fun c => match c.outcome with
          | .settled b => b
          | .pending _ => false
        let (e, ok) := e.record shared field calls.result passed
        (e, ⟨.ok (.known ok), calls.notes⟩)

/-- Ends a pending validation with the results of its calls. If the field has a newer generation,
the results are only told; otherwise they take the place of the field's entries. -/
def finish (e : Engine) (shared : Shared) (p : PendingField) (passed : List Bool) :
    Engine × Bool :=
  if e.generation p.field = p.generation then
    { e with bag := e.bag.remove p.field }.record shared p.field p.calls passed
  else (e, passed.all id)

/-- Puts the bag in the order of the fields. -/
def sortBag (e : Engine) : Engine := { e with bag := e.bag.sortByFields e.fieldNames }

/-- Validates fields one after the other. -/
def validateEach (shared : Shared) (values : String → Value) :
    Engine → List String → Engine × Noted (List Verdict)
  | e, [] => (e, ⟨[], []⟩)
  | e, field :: rest =>
    let (e, first) := e.validate shared field (values field)
    let verdict := match first.result with
      | .ok v => v
      | .error _ => .known false
    let (e, others) := validateEach shared values e rest
    (e, ⟨verdict :: others.result, first.notes ++ others.notes⟩)

/-- A verdict waits for answers. -/
def isPending : Verdict → Bool
  | .pending _ => true
  | .known _ => false

/-- Validates every declared field. -/
def validateAll (e : Engine) (shared : Shared) (values : String → Value) :
    Engine × Noted FormVerdict :=
  let (e, verdicts) := validateEach shared values e e.fieldNames
  if verdicts.result.any isPending then (e, ⟨.pending verdicts.result, verdicts.notes⟩)
  else
    let passed := verdicts.result.all fun v => match v with
      | .known b => b
      | .pending _ => false
    (e.sortBag, ⟨.known passed, verdicts.notes⟩)

/-! ## Text -/

/-- The engine as a text: fields with their rules, and the locale. -/
def toText (e : Engine) : String :=
  let item (f : String × List Rule) : String :=
    Text.quoted f.1 ++ ": " ++ Text.quoted (Rule.writeAll f.2)
  "ValidationEngine(\x7b" ++ String.intercalate ", " (e.fields.map item) ++ "\x7d, locale="
    ++ (Value.ofKey e.locale).literal ++ ")"

/-- A field with its rules as a text. -/
def fieldText (field : String) (rules : List Rule) : String :=
  "FieldValidator(" ++ Text.quoted field ++ ", " ++ Text.quoted (Rule.writeAll rules) ++ ")"

end Engine

end FieldRules
