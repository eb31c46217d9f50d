import FieldRules.Proofs.Engine.Exchange

/-!
# Engines that answer at once

In one exchange of answers no validator puts its answer off: what was put off is answered at once
with what it would come to (`land`). So the rules of the other engine say what those of the first will
say (`judgements_atOnce`).
-/

namespace FieldRules

/-- The answer that comes at once in place of one that was put off. -/
def Answer.atOnce (land : Deferred → Except Fault Value) : Answer → Answer
  | .later d => match land d with
    | .ok v => .now v
    | .error f => .fault f
  | answer => answer

/-- The definition whose validator answers at once. -/
def Definition.atOnce (land : Deferred → Except Fault Value) (d : Definition) : Definition :=
  { d with validate := fun value params =>
      ⟨(d.validate value params).result.atOnce land, (d.validate value params).notes⟩ }

/-- What is known of a call when its answer comes at once. -/
def Outcome.atOnce (land : Deferred → Except Fault Value) : Outcome → Outcome
  | .settled passed => .settled passed
  | .pending d => .settled (passedBy (land d))

/-- The call whose answer comes at once. -/
def RuleCall.atOnce (land : Deferred → Except Fault Value) (c : RuleCall) : RuleCall :=
  { c with
    definition := c.definition.map (·.atOnce land)
    outcome := c.outcome.atOnce land }

/-- Definitions whose validators answer at once. -/
def Table.atOnce (land : Deferred → Except Fault Value) (t : Table String Definition) :
    Table String Definition :=
  t.map fun e => (e.1, e.2.atOnce land)

/-- What engines share, with validators that answer at once. -/
def Shared.atOnce (land : Deferred → Except Fault Value) (s : Shared) : Shared :=
  { s with catalog := ⟨Table.atOnce land s.catalog.definitions⟩ }

/-- The engine with validators that answer at once. -/
def Engine.atOnce (land : Deferred → Except Fault Value) (e : Engine) : Engine :=
  { e with overlay := ⟨Table.atOnce land e.overlay.definitions⟩ }

variable (land : Deferred → Except Fault Value)

/-- Answers that come at once in place of those that were put off. -/
def Exchange.atOnce : Exchange where
  answer := Answer.atOnce land
  outcome := Outcome.atOnce land
  outcome_answer := by
    intro a
    cases a with
    | later d =>
        simp only [Answer.atOnce, Answer.outcome, Outcome.atOnce]
        cases land d <;> rfl
    | _ => rfl
  settled := fun _ => rfl

namespace Engine

/-! ## Calls -/

/-- The calls are the same, with answers that come at once. -/
theorem callsOf_atOnce (e : Engine) (shared : Shared) (field : String) (value : Value) :
    (e.atOnce land).callsOf (shared.atOnce land) field value =
      (e.callsOf shared field value).map (·.atOnce land) :=
  callsOf_exchanged (Exchange.atOnce land) e shared field value

/-- No call is put off. -/
theorem not_isPending_atOnce (calls : List RuleCall) :
    (calls.map (·.atOnce land)).any RuleCall.isPending = false := by
  rw [List.any_map, List.any_eq_false]
  intro c _
  simp only [Function.comp_apply, RuleCall.isPending, RuleCall.atOnce]
  cases c.outcome <;> simp [Outcome.atOnce]

/-- The rules say at once what they will say. -/
theorem judgements_atOnce {e : Engine} {shared : Shared} {values : String → Value}
    {delivered : String → Nat → Except Fault Value} {field : String}
    (h : ∀ (i : Nat) (c : RuleCall) (d : Deferred),
      (e.callsOf shared field (values field))[i]? = some c → c.outcome = .pending d →
        delivered field i = land d)
    (delivered' : String → Nat → Except Fault Value) :
    (e.atOnce land).judgements (shared.atOnce land) values delivered' field =
      e.judgements shared values delivered field := by
  apply judgements_exchanged (Exchange.atOnce land)
  intro i c hc
  unfold RuleCall.passedAs RuleCall.exchanged
  cases hout : c.outcome with
  | settled passed => rfl
  | pending d => rw [h i c d hc hout]; rfl

end Engine

end FieldRules
