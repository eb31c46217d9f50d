import FieldRules.Proofs.Engine.Form

/-!
# Engines whose validators answer otherwise

An engine is given another form in which its validators answer otherwise. An exchange of answers
keeps what is known at once: whether a call passed or failed is as it was, and only what was put off
may be known now. Rules and messages stay the same, so the calls of the other engine are those of the
first with their outcomes exchanged (`asked_exchanged`), with the messages that they had
(`messages_exchanged`), and if what was put off comes to the same its rules say the same
(`judgements_exchanged`).
-/

namespace FieldRules

/-- What is known of a call from the answer of its validator. -/
def Answer.outcome : Answer → Outcome
  | .now v => .settled v.truthy
  | .later d => .pending d
  | .fault _ => .settled false

/-- Answers in place of those that validators give, and what is known of calls then. What was known
stays known. -/
structure Exchange where
  answer : Answer → Answer
  outcome : Outcome → Outcome
  outcome_answer : ∀ a, (answer a).outcome = outcome a.outcome
  settled : ∀ passed, outcome (.settled passed) = .settled passed

/-- The definition whose validator answers otherwise. -/
def Definition.exchanged (x : Exchange) (d : Definition) : Definition :=
  { d with validate := fun value params =>
      ⟨x.answer (d.validate value params).result, (d.validate value params).notes⟩ }

/-- The call whose validator answered otherwise. -/
def RuleCall.exchanged (x : Exchange) (c : RuleCall) : RuleCall :=
  { c with
    definition := c.definition.map (·.exchanged x)
    outcome := x.outcome c.outcome }

/-- Definitions whose validators answer otherwise. -/
def Table.exchanged (x : Exchange) (t : Table String Definition) : Table String Definition :=
  t.map fun e => (e.1, e.2.exchanged x)

/-- What engines share, with validators that answer otherwise. -/
def Shared.exchanged (x : Exchange) (s : Shared) : Shared :=
  { s with catalog := ⟨Table.exchanged x s.catalog.definitions⟩ }

/-- The engine with validators that answer otherwise. -/
def Engine.exchanged (x : Exchange) (e : Engine) : Engine :=
  { e with overlay := ⟨Table.exchanged x e.overlay.definitions⟩ }

/-- The same calls, answered otherwise. -/
def Engine.Asked.exchanged (x : Exchange) : Engine.Asked → Engine.Asked
  | .undeclared => .undeclared
  | .refused f => .refused f
  | .calls cs => .calls (cs.map (·.exchanged x))

variable (x : Exchange)

/-! ## Calls -/

theorem Table.get?_exchanged (t : Table String Definition) (name : String) :
    get? (exchanged x t) name = (get? t name).map (·.exchanged x) := by
  induction t with
  | nil => rfl
  | cons e t ih =>
      have hcons : exchanged x (e :: t) = (e.1, e.2.exchanged x) :: exchanged x t := rfl
      rw [hcons, get?_cons, get?_cons, ih]
      split <;> rfl

theorem resolve_exchanged (e : Engine) (shared : Shared) (name : String) :
    (e.exchanged x).overlay.resolve (shared.exchanged x).catalog name =
      (e.overlay.resolve shared.catalog name).map (·.exchanged x) := by
  simp only [Overlay.resolve, Catalog.get?, Engine.exchanged, Shared.exchanged, Table.get?_exchanged]
  cases Table.get? e.overlay.definitions name <;> rfl

theorem result_invoke (d : Definition) (value : Value) (params : List Value) :
    (invoke d value params).result = (d.validate value params).result.outcome := by
  cases hreply : (d.validate value params).result <;> simp only [invoke, hreply, Answer.outcome]

theorem invoke_exchanged (d : Definition) (value : Value) (params : List Value) :
    (invoke (d.exchanged x) value params).result = x.outcome (invoke d value params).result := by
  rw [result_invoke, result_invoke]
  exact x.outcome_answer _

theorem callRule_exchanged {resolve resolve' : Resolver}
    (h : ∀ name, resolve' name = (resolve name).map (·.exchanged x)) (value : Value)
    (extra : List Value) (rule : Rule) :
    (callRule resolve' value extra rule).result =
      (callRule resolve value extra rule).result.exchanged x := by
  unfold callRule
  rw [h]
  cases resolve rule.name with
  | none => simp only [Option.map_none, RuleCall.exchanged, x.settled]
  | some d => simp only [Option.map_some, invoke_exchanged, RuleCall.exchanged]

theorem dispatch_exchanged {resolve resolve' : Resolver}
    (h : ∀ name, resolve' name = (resolve name).map (·.exchanged x)) (value : Value)
    (extra : List Value) (rules : List Rule) :
    (dispatch resolve' value extra rules).result =
      (dispatch resolve value extra rules).result.map (·.exchanged x) := by
  simp only [dispatch, List.map_map]
  apply List.map_congr_left
  intro rule _
  exact callRule_exchanged x h value extra rule

/-- Calls that come to the same have the same results. -/
theorem resultsOf_exchanged {calls : List RuleCall} {delivered delivered' : Nat → Except Fault Value}
    (h : ∀ (i : Nat) (c : RuleCall), calls[i]? = some c →
      (c.exchanged x).passedAs (delivered' i) = c.passedAs (delivered i)) :
    resultsOf delivered' (calls.map (·.exchanged x)) = resultsOf delivered calls := by
  unfold resultsOf
  apply List.ext_getElem?
  intro i
  rw [List.getElem?_mapIdx, List.getElem?_mapIdx, List.getElem?_map]
  cases hc : calls[i]? with
  | none => rfl
  | some c => simp only [Option.map_some, h i c hc]

namespace Engine

variable (e : Engine) (shared : Shared)

/-- The validation of a field calls the same, answered otherwise. -/
theorem asked_exchanged (field : String) (value extra : Value) :
    (e.exchanged x).asked (shared.exchanged x) field value extra =
      (e.asked shared field value extra).exchanged x := by
  have hrules : (e.exchanged x).rules? field = e.rules? field := rfl
  unfold asked
  rw [hrules]
  cases e.rules? field with
  | none => rfl
  | some rules =>
      simp only
      cases extraParams rules (if extra.truthy then extra else .list []) with
      | error f => rfl
      | ok params =>
          simp only [Asked.exchanged, dispatch_exchanged x (resolve_exchanged x e shared)]

theorem callsOf_exchanged (field : String) (value : Value) :
    (e.exchanged x).callsOf (shared.exchanged x) field value =
      (e.callsOf shared field value).map (·.exchanged x) :=
  dispatch_exchanged x (resolve_exchanged x e shared) value [] (e.rulesFor field)

/-- Messages do not depend on validators. -/
theorem messages_exchanged (field : String) :
    (e.exchanged x).messages (shared.exchanged x) field = e.messages shared field := rfl

theorem messages_call_exchanged (field : String) (c : RuleCall) :
    e.messages shared field (c.exchanged x) = e.messages shared field c := by
  unfold messages messageFor RuleCall.exchanged
  cases c.definition <;> rfl

theorem entriesFor_exchanged (field : String) (calls : List RuleCall) (passed : List Bool) :
    entriesFor field (e.messages shared field) (calls.map (·.exchanged x)) passed =
      entriesFor field (e.messages shared field) calls passed := by
  unfold entriesFor
  rw [List.zip_map_left, List.filter_map, List.map_map]
  apply List.map_congr_left
  rintro ⟨c, ok⟩ _
  simp only [Function.comp_apply, Prod.map_fst, messages_call_exchanged]
  rfl

variable {e shared} {values : String → Value}
  {delivered delivered' : String → Nat → Except Fault Value} {field : String}

theorem resultsFor_exchanged
    (h : ∀ (i : Nat) (c : RuleCall), (e.callsOf shared field (values field))[i]? = some c →
      (c.exchanged x).passedAs (delivered' field i) = c.passedAs (delivered field i)) :
    (e.exchanged x).resultsFor (shared.exchanged x) values delivered' field =
      e.resultsFor shared values delivered field := by
  unfold resultsFor
  rw [callsOf_exchanged]
  exact resultsOf_exchanged x h

/-- Rules whose calls come to the same say the same. -/
theorem judgements_exchanged
    (h : ∀ (i : Nat) (c : RuleCall), (e.callsOf shared field (values field))[i]? = some c →
      (c.exchanged x).passedAs (delivered' field i) = c.passedAs (delivered field i)) :
    (e.exchanged x).judgements (shared.exchanged x) values delivered' field =
      e.judgements shared values delivered field := by
  unfold judgements
  rw [resultsFor_exchanged x h, callsOf_exchanged, List.zip_map_left, List.map_map]
  apply List.map_congr_left
  rintro ⟨c, passed⟩ _
  simp only [Function.comp_apply, Prod.map_fst, Prod.map_snd, messages_exchanged,
    messages_call_exchanged, id_eq]
  rfl

end Engine

end FieldRules
