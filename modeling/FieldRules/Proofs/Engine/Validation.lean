import FieldRules.Engine
import FieldRules.Proofs.Bag.Blocks
import FieldRules.Proofs.Table

/-!
# What a validation does

`asked` is what the validation of a field calls, apart from what is done with the results. With it
there is one lemma for each thing that a validation can come to: an undeclared field, refused
parameters, results that are known at once, and results that are awaited. Everything later cites
these and leaves `validate` closed.

`entriesFor` spells out the entries that a validation leaves: one for each call that failed, in the
order of the calls.
-/

namespace FieldRules

/-! ## Results of calls -/

/-- The result of a call, given what it comes to if it was put off. -/
def RuleCall.passedAs (delivered : Except Fault Value) (c : RuleCall) : Bool :=
  match c.outcome with
  | .settled passed => passed
  | .pending _ => passedBy delivered

/-- The results of calls in their places, given what each comes to that was put off. -/
def resultsOf (delivered : Nat → Except Fault Value) (calls : List RuleCall) : List Bool :=
  calls.mapIdx fun i c => c.passedAs (delivered i)

/-- The results of calls that are known. -/
def settledResults (calls : List RuleCall) : List Bool :=
  calls.map fun c => match c.outcome with
    | .settled b => b
    | .pending _ => false

/-- The entries of the calls that failed. -/
def entriesFor (field : String) (message : RuleCall → String) (calls : List RuleCall)
    (passed : List Bool) : List Entry :=
  ((calls.zip passed).filter fun x => !x.2).map fun x =>
    { field, message := message x.1, rule := some x.1.rule.name }

@[simp] theorem length_resultsOf (delivered : Nat → Except Fault Value) (calls : List RuleCall) :
    (resultsOf delivered calls).length = calls.length := by
  simp [resultsOf]

/-- Calls that are known at once have their results whatever is delivered. -/
theorem resultsOf_of_settled {calls : List RuleCall} (h : calls.any RuleCall.isPending = false)
    (delivered : Nat → Except Fault Value) : resultsOf delivered calls = settledResults calls := by
  unfold resultsOf settledResults
  rw [List.mapIdx_eq_zipIdx_map]
  conv_rhs => rw [← List.zipIdx_map_fst 0 calls, List.map_map]
  apply List.map_congr_left
  rintro ⟨c, i⟩ hc
  have hc' : c.isPending = false := by
    rw [List.any_eq_false] at h
    simpa using h c (List.fst_mem_of_mem_zipIdx hc)
  unfold RuleCall.isPending at hc'
  unfold RuleCall.passedAs
  cases hout : c.outcome with
  | settled passed => simp [hout]
  | pending d => simp [hout] at hc'

theorem field_of_mem_entriesFor {field : String} {message : RuleCall → String}
    {calls : List RuleCall} {passed : List Bool} :
    ∀ x ∈ entriesFor field message calls passed, x.field = field := by
  intro x hx
  obtain ⟨y, -, rfl⟩ := List.mem_map.mp hx
  rfl

/-- There is no entry exactly if every call passed. -/
theorem entriesFor_eq_nil_iff {field : String} {message : RuleCall → String}
    {calls : List RuleCall} {passed : List Bool} (h : passed.length = calls.length) :
    entriesFor field message calls passed = [] ↔ passed.all id = true := by
  unfold entriesFor
  rw [List.map_eq_nil_iff, List.filter_eq_nil_iff, List.all_eq_true]
  constructor
  · intro hnone ok hok
    have hsnd : (calls.zip passed).map Prod.snd = passed := by
      rw [List.map_snd_zip]
      omega
    rw [← hsnd] at hok
    obtain ⟨x, hx, rfl⟩ := List.mem_map.mp hok
    simpa using hnone x hx
  · rintro hall ⟨c, ok⟩ hx
    simpa using hall ok (List.of_mem_zip hx).2

/-- The rules in entries are those of the calls, in order. -/
theorem entriesFor_rules_sublist (field : String) (message : RuleCall → String)
    {calls : List RuleCall} {passed : List Bool} (h : passed.length = calls.length) :
    ((entriesFor field message calls passed).map (·.rule)).Sublist
      (calls.map fun c => some c.rule.name) := by
  unfold entriesFor
  rw [List.map_map]
  have hkept : ((calls.zip passed).filter fun x => !x.2).Sublist (calls.zip passed) :=
    List.filter_sublist
  have hfst : (calls.zip passed).map Prod.fst = calls := List.map_fst_zip (by omega)
  have hcalls := hkept.map Prod.fst
  rw [hfst] at hcalls
  have hnames := hcalls.map fun c : RuleCall => some c.rule.name
  rw [List.map_map] at hnames
  exact hnames

namespace Engine

/-! ## Frames -/

/-- Two engines differ in their bags and generations at most. -/
def SameSetup (e e' : Engine) : Prop :=
  e' = { e with bag := e'.bag, generations := e'.generations }

theorem SameSetup.refl (e : Engine) : SameSetup e e := rfl

theorem SameSetup.trans {e e' e'' : Engine} (h : SameSetup e e') (h' : SameSetup e' e'') :
    SameSetup e e'' := by
  unfold SameSetup at h h' ⊢
  rw [h'] at ⊢
  rw [h]

theorem SameSetup.fields {e e' : Engine} (h : SameSetup e e') : e'.fields = e.fields := by
  rw [h]

theorem sameSetup_renew (e : Engine) (field : String) : SameSetup e (e.renew field) := rfl

/-- An engine with rules has them as its fields, and no validators of its own. -/
theorem sameSetup_ofRules (rules : Table String (List Rule)) (locale : Key)
    (attributes : Table String String) :
    SameSetup { fields := Table.ofPairs rules, locale, attributes }
      (ofRules rules locale attributes) := by
  have hattached : ∀ e : Engine,
      SameSetup { e with fields := rules.foldl (fun t r => Table.put t r.1 r.2) e.fields }
        (rules.foldl (fun e r => e.attach r.1 r.2) e) := by
    induction rules with
    | nil => exact fun e => rfl
    | cons r rules ih => exact fun e => (ih (e.attach r.1 r.2)).trans rfl
  exact hattached { locale, attributes }

theorem generation_renew (e : Engine) (f g : String) :
    (e.renew f).generation g = if f = g then e.generation f + 1 else e.generation g := by
  unfold generation renew
  rw [Table.get?_put]
  split <;> rfl

theorem generation_attach (e : Engine) (f : String) (rules : List Rule) (g : String) :
    (e.attach f rules).generation g = if f = g then e.generation f + 1 else e.generation g :=
  generation_renew { e with fields := Table.put e.fields f rules } f g

theorem generation_detach (e : Engine) (f g : String) :
    (e.detach f).generation g = if f = g then e.generation f + 1 else e.generation g :=
  generation_renew { e with fields := Table.remove e.fields f } f g

/-! ## What is called -/

/-- What the validation of a field calls. -/
inductive Asked where
  /-- The field is not declared. -/
  | undeclared
  /-- The parameters of the caller are no list. -/
  | refused (f : Fault)
  /-- The rules of the field, in order. -/
  | calls (cs : List RuleCall)

/-- What the validation of a field calls. -/
def asked (e : Engine) (shared : Shared) (field : String) (value extra : Value) : Asked :=
  match e.rules? field with
  | none => .undeclared
  | some rules =>
    match extraParams rules (if extra.truthy then extra else .list []) with
    | .error f => .refused f
    | .ok params => .calls (dispatch (e.overlay.resolve shared.catalog) value params rules).result

/-- The messages for failed calls of a field. -/
def messages (e : Engine) (shared : Shared) (field : String) : RuleCall → String :=
  e.messageFor shared (e.displayName field)

theorem SameSetup.asked {e e' : Engine} (h : SameSetup e e') : e'.asked = e.asked := by
  rw [h]
  rfl

theorem SameSetup.messages {e e' : Engine} (h : SameSetup e e') : e'.messages = e.messages := by
  rw [h]
  rfl

theorem rule_callRule (resolve : Resolver) (value : Value) (extra : List Value) (r : Rule) :
    (callRule resolve value extra r).result.rule = r := by
  unfold callRule
  cases hr : resolve r.name <;> simp

theorem dispatch_rules (resolve : Resolver) (value : Value) (extra : List Value)
    (rules : List Rule) : (dispatch resolve value extra rules).result.map (·.rule) = rules := by
  simp only [dispatch, List.map_map]
  conv_rhs => rw [← List.map_id rules]
  apply List.map_congr_left
  intro r _
  exact rule_callRule resolve value extra r

/-- Every rule of the field is called, in order. -/
theorem rules?_of_asked {e : Engine} {shared : Shared} {field : String} {value extra : Value}
    {cs : List RuleCall} (h : e.asked shared field value extra = .calls cs) :
    e.rules? field = some (cs.map (·.rule)) := by
  unfold asked at h
  split at h
  · simp at h
  · rename_i rules hrules
    split at h
    · simp at h
    · simp only [Asked.calls.injEq] at h
      rw [hrules, ← h, dispatch_rules]

/-- Without parameters of the caller nothing is refused. -/
theorem asked_without_extra (e : Engine) (shared : Shared) (field : String) (value : Value) :
    e.asked shared field value (.list []) = match e.rules? field with
      | none => .undeclared
      | some rules => .calls (dispatch (e.overlay.resolve shared.catalog) value [] rules).result := by
  unfold asked
  cases e.rules? field with
  | none => rfl
  | some rules =>
      have hextra : extraParams rules (if (Value.list []).truthy then .list [] else .list []) =
          .ok [] := by
        unfold extraParams
        cases rules <;> rfl
      simp only [hextra]

/-- What a caller gives in a list are the parameters of the caller, also if it is nothing. -/
theorem extraParams_list {rules : List Rule} (hne : rules ≠ []) (extra : List Value) :
    extraParams rules (if (Value.list extra).truthy then .list extra else .list []) = .ok extra := by
  have hempty : rules.isEmpty = false := by simpa using hne
  unfold extraParams
  rw [hempty]
  cases extra <;> rfl

/-- A field with rules calls them with the parameters that the caller gives in a list, and leaves what that
leaves. -/
theorem asked_with_list {e : Engine} {field : String} {rules : List Rule}
    (hrules : e.rules? field = some rules) (hne : rules ≠ []) (shared : Shared) (value : Value)
    (extra : List Value) :
    e.asked shared field value (.list extra) =
        .calls (dispatch (e.overlay.resolve shared.catalog) value extra rules).result ∧
      (e.validate shared field value (.list extra)).2.notes =
        (dispatch (e.overlay.resolve shared.catalog) value extra rules).notes := by
  have hrenewed : (e.renew field).rules? field = some rules := hrules
  constructor
  · simp only [asked, hrules, extraParams_list hne]
  · simp only [validate, hrenewed, extraParams_list hne]
    split <;> rfl

/-! ## What it comes to -/

theorem failures_eq_entriesFor (e : Engine) (shared : Shared) (field : String)
    (calls : List RuleCall) (passed : List Bool) :
    e.failures shared field calls passed =
      entriesFor field (e.messages shared field) calls passed := by
  unfold failures entriesFor messages
  rw [← List.filterMap_eq_map, ← List.filterMap_eq_filter, List.filterMap_filterMap]
  apply List.filterMap_congr
  rintro ⟨c, ok⟩ _
  cases ok <;> simp [Option.guard]

variable {e : Engine} {shared : Shared} {field : String} {value extra : Value}

theorem validate_undeclared (h : e.asked shared field value extra = .undeclared) :
    e.validate shared field value extra = (e.renew field, ⟨.ok (.known true), []⟩) := by
  have hrules : (e.renew field).rules? field = none := by
    unfold asked at h
    split at h
    · assumption
    · split at h <;> simp at h
  simp only [validate, hrules]

theorem validate_refused {f : Fault} (h : e.asked shared field value extra = .refused f) :
    e.validate shared field value extra = (e.renew field, ⟨.error f, []⟩) := by
  unfold asked at h
  split at h
  · simp at h
  · rename_i rules hrules
    split at h
    · rename_i g hg
      simp only [Asked.refused.injEq] at h
      have hrules' : (e.renew field).rules? field = some rules := hrules
      simp only [validate, hrules', hg, h]
    · simp at h

theorem validate_pending {cs : List RuleCall} (h : e.asked shared field value extra = .calls cs)
    (hpending : cs.any RuleCall.isPending = true) :
    (e.validate shared field value extra).1 = e.renew field ∧
      (e.validate shared field value extra).2.result =
        .ok (.pending { field, generation := e.generation field + 1, calls := cs }) := by
  unfold asked at h
  split at h
  · simp at h
  · rename_i rules hrules
    split at h
    · simp at h
    · rename_i params hparams
      simp only [Asked.calls.injEq] at h
      have hrules' : (e.renew field).rules? field = some rules := hrules
      have hcalls : (dispatch ((e.renew field).overlay.resolve shared.catalog) value params
          rules).result = cs := h
      have hgen : (e.renew field).generation field = e.generation field + 1 := by
        rw [generation_renew, if_pos rfl]
      simp only [validate, hrules', hparams, hcalls, hpending, hgen, if_true, and_self]

theorem validate_known {cs : List RuleCall} (h : e.asked shared field value extra = .calls cs)
    (hknown : cs.any RuleCall.isPending = false) :
    (e.validate shared field value extra).1 =
        { e.renew field with
          bag := (entriesFor field (e.messages shared field) cs (settledResults cs)).foldl Bag.add
            (e.bag.remove field) } ∧
      (e.validate shared field value extra).2.result =
        .ok (.known ((settledResults cs).all id)) := by
  unfold asked at h
  split at h
  · simp at h
  · rename_i rules hrules
    split at h
    · simp at h
    · rename_i params hparams
      simp only [Asked.calls.injEq] at h
      have hrules' : (e.renew field).rules? field = some rules := hrules
      have hcalls : (dispatch ((e.renew field).overlay.resolve shared.catalog) value params
          rules).result = cs := h
      have hfailures : (e.renew field).failures shared field cs (settledResults cs) =
          entriesFor field (e.messages shared field) cs (settledResults cs) :=
        failures_eq_entriesFor _ _ _ _ _
      simp only [validate, hrules', hparams, hcalls, hknown, Bool.false_eq_true, if_false, record]
      exact ⟨by rw [← hfailures]; rfl, rfl⟩

/-- A pending validation that is still the latest of its field takes the place of its entries. -/
theorem finish_current {p : PendingField} (h : e.generation p.field = p.generation)
    (passed : List Bool) :
    e.finish shared p passed =
      ({ e with
          bag := (entriesFor p.field (e.messages shared p.field) p.calls passed).foldl Bag.add
            (e.bag.remove p.field) },
        passed.all id) := by
  have hfailures := failures_eq_entriesFor { e with bag := e.bag.remove p.field } shared p.field
    p.calls passed
  unfold finish
  rw [if_pos h, record, hfailures]
  rfl

/-- A pending validation of an older generation leaves no trace. -/
theorem finish_stale {p : PendingField} (h : e.generation p.field ≠ p.generation)
    (passed : List Bool) : e.finish shared p passed = (e, passed.all id) := by
  unfold finish
  rw [if_neg h]

end Engine

end FieldRules
