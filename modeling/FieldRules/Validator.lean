import FieldRules.Fault
import FieldRules.Value

/-!
# Validators

A validator is called with a value and parameters. It answers at once with a value, whose truth
decides, or with a fault; or it puts its answer off. What is put off is `Deferred`: it waits for a
gate that somebody opens, or it is a task that settles once it is started.

A host can keep a record of calls; what a call leaves there is its `notes`.
-/

namespace FieldRules

/-- A line in the record of calls. -/
inductive CallNote where
  /-- A validator was called, with the texts of the value and the parameters. -/
  | validator (label value : String) (params : List String)
  /-- The size of an image was asked for. -/
  | probe (file : String)
deriving Repr, DecidableEq

/-- A result with the notes that were left on the way. -/
structure Noted (α : Type) where
  result : α
  notes : List CallNote := []
deriving Repr

/-- Looks at an upload for the size of its image. -/
abbrev Probe := Upload → Noted (Except Fault Value)

/-- An answer that was put off. -/
inductive Deferred where
  /-- The answer comes when the gate is opened. -/
  | gate (name : String)
  /-- The answer comes once the task is started. -/
  | task (run : Probe → Noted (Except Fault Value))

/-- What a validator answers when it is called. -/
inductive Answer where
  | now (v : Value)
  | later (d : Deferred)
  | fault (f : Fault)

/-- A validator, called with a value and parameters. -/
abbrev Validator := Value → List Value → Noted Answer

/-- The validator of a predicate that knows its answer or fails. -/
def Validator.ofPredicate (p : Value → List Value → Except Fault Bool) : Validator :=
  fun value params => match p value params with
    | .ok b => ⟨.now (.bool b), []⟩
    | .error f => ⟨.fault f, []⟩

/-- A validator that always answers with the same value. -/
def Validator.const (v : Value) : Validator := fun _ _ => ⟨.now v, []⟩

/-- What cannot be called fails when it is called. -/
def Validator.notCallable : Validator := fun _ _ => ⟨.fault .wrongKind, []⟩

end FieldRules
