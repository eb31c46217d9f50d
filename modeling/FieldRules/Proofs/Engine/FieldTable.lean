import FieldRules.Proofs.Engine.Shape
import FieldRules.Proofs.Host.Frame

/-!
# The fields of an engine over a whole run

Which fields an engine has, in which order, and with which rules, is decided by the attachments and
removals in its history alone, those counted in that it was made with. A field is declared if the last
step on it is an attachment, its rules are those of that attachment, and its place is that of the
attachment that introduced it: the first one after its last removal (`Introduces`).

What a single step does to the order is `fieldNames_attach` and `fieldNames_detach`; `listed_concat`
carries the order from one step to the next, and `fields_follow_steps` says it of every course.
-/

namespace FieldRules

/-- An attachment of rules, as a text, or a removal of a field. -/
inductive FieldStep where
  | attach (field text : String)
  | detach (field : String)
deriving DecidableEq

namespace FieldStep

/-- The field that a step is on. -/
def field : FieldStep → String
  | attach f _ => f
  | detach f => f

/-- The step as an event of a course. -/
def event : FieldStep → Course.Event
  | attach f text => .attach f (Rule.readAll text)
  | detach f => .detach f

/-- The rules that a step gives its field. -/
def rules? : FieldStep → Option (List Rule)
  | attach _ text => some (Rule.readAll text)
  | detach _ => none

/-- The last of the steps that is on a field. -/
def lastOn? (steps : List FieldStep) (f : String) : Option FieldStep :=
  (steps.filter (·.field == f)).getLast?

/-- The step at a place is the attachment that introduced a field: the first one after the last removal
of the field. -/
structure Introduces (steps : List FieldStep) (i : Nat) (f : String) : Prop where
  attaches : ∃ text, steps[i]? = some (.attach f text)
  stays : ∀ j, i < j → steps[j]? ≠ some (.detach f)
  first : ∀ j text, j < i → steps[j]? = some (.attach f text) →
    ∃ k, j < k ∧ k < i ∧ steps[k]? = some (.detach f)

/-- Every attachment of a field was followed by a removal. -/
def Gone (steps : List FieldStep) (f : String) : Prop :=
  ∀ (j : Nat) (text : String), steps[j]? = some (.attach f text) →
    ∃ k, j < k ∧ steps[k]? = some (.detach f)

variable {steps : List FieldStep} {s : FieldStep} {f : String} {i j : Nat}

/-! ## One more step -/

theorem lastOn?_concat (steps : List FieldStep) (s : FieldStep) (f : String) :
    lastOn? (steps ++ [s]) f = if s.field = f then some s else lastOn? steps f := by
  unfold lastOn?
  rw [List.filter_append]
  by_cases hs : s.field = f
  · rw [if_pos hs, List.filter_cons_of_pos (by simpa using hs)]
    simp
  · rw [if_neg hs, List.filter_cons_of_neg (by simpa using hs)]
    simp

/-- A step of a longer run is one of the shorter run or the last. -/
theorem getElem?_concat_cases {t : FieldStep} (h : (steps ++ [s])[j]? = some t) :
    (j < steps.length ∧ steps[j]? = some t) ∨ (j = steps.length ∧ s = t) := by
  rcases Nat.lt_trichotomy j steps.length with hlt | heq | hgt
  · rw [List.getElem?_append_left hlt] at h
    exact Or.inl ⟨hlt, h⟩
  · rw [heq, List.getElem?_concat_length] at h
    exact Or.inr ⟨heq, Option.some.inj h⟩
  · rw [List.getElem?_eq_none (by simp; omega)] at h
    cases h

theorem getElem?_of_lt_length {t : FieldStep} (h : steps[j]? = some t) : j < steps.length :=
  (List.getElem?_eq_some_iff.mp h).1

theorem getElem?_concat_of_some {t : FieldStep} (h : steps[j]? = some t) (s : FieldStep) :
    (steps ++ [s])[j]? = some t := by
  rw [List.getElem?_append_left (getElem?_of_lt_length h), h]

/-- A field stays introduced where it was until it is removed. -/
theorem Introduces.concat (h : Introduces steps i f) (hs : s ≠ .detach f) :
    Introduces (steps ++ [s]) i f := by
  obtain ⟨text, hattach⟩ := h.attaches
  have hlt := getElem?_of_lt_length hattach
  refine ⟨⟨text, getElem?_concat_of_some hattach s⟩, ?_, ?_⟩
  · intro j hij hdetach
    rcases getElem?_concat_cases hdetach with ⟨-, hold⟩ | ⟨-, hlast⟩
    · exact h.stays j hij hold
    · exact hs hlast
  · intro j text' hji hj
    rcases getElem?_concat_cases hj with ⟨-, hold⟩ | ⟨hend, -⟩
    · obtain ⟨k, hjk, hki, hk⟩ := h.first j text' hji hold
      exact ⟨k, hjk, hki, getElem?_concat_of_some hk s⟩
    · omega

/-- An attachment introduces a field that is gone. -/
theorem Gone.introduces (h : Gone steps f) (text : String) :
    Introduces (steps ++ [.attach f text]) steps.length f := by
  refine ⟨⟨text, List.getElem?_concat_length⟩, ?_, ?_⟩
  · intro j hlt hdetach
    have := getElem?_of_lt_length hdetach
    rw [List.length_append, List.length_singleton] at this
    omega
  · intro j text' hlt hj
    rw [List.getElem?_append_left hlt] at hj
    obtain ⟨k, hjk, hk⟩ := h j text' hj
    exact ⟨k, hjk, getElem?_of_lt_length hk, getElem?_concat_of_some hk _⟩

theorem Gone.concat (h : Gone steps f) (hs : ∀ text, s ≠ .attach f text) : Gone (steps ++ [s]) f := by
  intro j text hj
  rcases getElem?_concat_cases hj with ⟨-, hold⟩ | ⟨-, hlast⟩
  · obtain ⟨k, hjk, hk⟩ := h j text hold
    exact ⟨k, hjk, getElem?_concat_of_some hk s⟩
  · exact absurd hlast (hs text)

/-- A removal makes a field gone. -/
theorem gone_detach (steps : List FieldStep) (f : String) : Gone (steps ++ [.detach f]) f := by
  intro j text hj
  rcases getElem?_concat_cases hj with ⟨hlt, -⟩ | ⟨-, hlast⟩
  · exact ⟨steps.length, hlt, List.getElem?_concat_length⟩
  · cases hlast

/-- There is one place at which a field was introduced. -/
theorem Introduces.unique (hi : Introduces steps i f) (hj : Introduces steps j f) : i = j := by
  -- The later of the two would come after a removal that comes after the earlier one.
  obtain ⟨text, hti⟩ := hi.attaches
  obtain ⟨text', htj⟩ := hj.attaches
  rcases Nat.lt_trichotomy i j with hlt | heq | hgt
  · obtain ⟨k, hik, -, hk⟩ := hj.first i text hlt hti
    exact absurd hk (hi.stays k hik)
  · exact heq
  · obtain ⟨k, hjk, -, hk⟩ := hi.first j text' hgt htj
    exact absurd hk (hj.stays k hjk)

/-! ## The order of the fields -/

/-- One field was introduced before another. -/
def Before (steps : List FieldStep) (f g : String) : Prop :=
  ∃ i j, Introduces steps i f ∧ Introduces steps j g ∧ i < j

/-- The names are those of the fields that are not gone, each once and in the order in which they were
introduced. -/
structure Lists (steps : List FieldStep) (names : List String) : Prop where
  introduced : ∀ f ∈ names, ∃ i, Introduces steps i f
  gone : ∀ f, f ∉ names → Gone steps f
  ordered : names.Pairwise (Before steps)

/-- The fields after a step. -/
def namesAfter (names : List String) : FieldStep → List String
  | attach f _ => if f ∈ names then names else names ++ [f]
  | detach f => names.filter (· ≠ f)

theorem lists_nil : Lists [] [] := by
  refine ⟨by simp, ?_, List.Pairwise.nil⟩
  intro f _ j text hj
  simp at hj

/-- The order of the fields is carried on by every step. -/
theorem listed_concat {names : List String} (h : Lists steps names) (s : FieldStep) :
    Lists (steps ++ [s]) (namesAfter names s) := by
  cases s with
  | attach f text =>
      have hstay : ∀ {g i}, Introduces steps i g → Introduces (steps ++ [.attach f text]) i g :=
        fun hg => hg.concat (by simp)
      have hbefore : names.Pairwise (Before (steps ++ [.attach f text])) :=
        h.ordered.imp fun ⟨i, j, hi, hj, hij⟩ => ⟨i, j, hstay hi, hstay hj, hij⟩
      have hgone : ∀ g, g ∉ names → g ≠ f → Gone (steps ++ [.attach f text]) g := by
        intro g hg hne
        apply (h.gone g hg).concat
        rintro text' heq
        cases heq
        exact hne rfl
      rw [namesAfter]
      split
      · -- The field was declared already and keeps its place.
        rename_i hf
        refine ⟨?_, ?_, hbefore⟩
        · intro g hg
          exact (h.introduced g hg).imp fun i hi => hstay hi
        · intro g hg
          exact hgone g hg fun heq => hg (heq ▸ hf)
      · -- The field is introduced, behind all that were introduced before.
        rename_i hf
        have hnew := (h.gone f hf).introduces text
        refine ⟨?_, ?_, ?_⟩
        · intro g hg
          rcases List.mem_append.mp hg with hold | hlast
          · exact (h.introduced g hold).imp fun i hi => hstay hi
          · rw [List.mem_singleton.mp hlast]
            exact ⟨_, hnew⟩
        · intro g hg
          rw [List.mem_append, List.mem_singleton, not_or] at hg
          exact hgone g hg.1 hg.2
        · refine List.pairwise_append.mpr ⟨hbefore, List.pairwise_singleton _ f, ?_⟩
          intro g hg f' hf'
          rw [List.mem_singleton.mp hf']
          obtain ⟨i, hi⟩ := h.introduced g hg
          obtain ⟨text', hattach⟩ := hi.attaches
          exact ⟨i, steps.length, hstay hi, hnew, getElem?_of_lt_length hattach⟩
  | detach f =>
      have hstay : ∀ {g i}, g ≠ f → Introduces steps i g → Introduces (steps ++ [.detach f]) i g := by
        intro g i hne hi
        apply hi.concat
        intro heq
        cases heq
        exact hne rfl
      rw [namesAfter]
      refine ⟨?_, ?_, ?_⟩
      · intro g hg
        obtain ⟨hold, hne⟩ := List.mem_filter.mp hg
        exact (h.introduced g hold).imp fun i hi => hstay (by simpa using hne) hi
      · intro g hg
        by_cases hgf : g = f
        · rw [hgf]
          exact gone_detach steps f
        · have hold : g ∉ names := fun hmem => hg (List.mem_filter.mpr ⟨hmem, by simpa using hgf⟩)
          exact (h.gone g hold).concat (by simp)
      · -- What is left was introduced where it was, in the same order.
        apply (h.ordered.filter _).imp_of_mem
        rintro g g' hg hg' ⟨i, j, hi, hj, hij⟩
        have hne := List.of_mem_filter hg
        have hne' := List.of_mem_filter hg'
        exact ⟨i, j, hstay (by simpa using hne) hi, hstay (by simpa using hne') hj, hij⟩

end FieldStep

namespace Engine

/-! ## The table of an engine -/

theorem fieldNames_attach (e : Engine) (f : String) (rules : List Rule) :
    (e.attach f rules).fieldNames = if f ∈ e.fieldNames then e.fieldNames else e.fieldNames ++ [f] :=
  Table.keys_put e.fields f rules

theorem fieldNames_detach (e : Engine) (f : String) :
    (e.detach f).fieldNames = e.fieldNames.filter (· ≠ f) :=
  Table.keys_remove e.fields f

theorem rulesFor_of_not_declared {e : Engine} {f : String} (h : f ∉ e.fieldNames) :
    e.rulesFor f = [] := by
  have hnone : e.rules? f = none := by
    rw [← Option.not_isSome_iff_eq_none]
    exact fun hsome => h (Table.get?_isSome_iff.mp hsome)
  rw [rulesFor, hnone, Option.getD_none]

theorem hasField_eq (e : Engine) (f : String) : e.hasField f = decide (f ∈ e.fieldNames) := by
  rw [Bool.eq_iff_iff, decide_eq_true_eq]
  exact Table.has_iff

/-- The fields of an engine and what it answers about them, after some attachments and removals. -/
structure FieldTable (steps : List FieldStep) (e : Engine) : Prop where
  /-- Every field is listed once. -/
  nodup : e.fieldNames.Nodup
  /-- The declared fields are those whose last step is an attachment. -/
  declared : ∀ f, f ∈ e.fieldNames ↔ ∃ text, FieldStep.lastOn? steps f = some (.attach f text)
  /-- Each was introduced by one attachment. -/
  introduced : ∀ f ∈ e.fieldNames, ∃! i, FieldStep.Introduces steps i f
  /-- They are listed in the order of these attachments. -/
  ordered : e.fieldNames.Pairwise (FieldStep.Before steps)
  /-- So the attachment of a declared field keeps its place, and that of one that was removed moves it to
  the end. -/
  kept : ∀ f rules, f ∈ e.fieldNames → (e.attach f rules).fieldNames = e.fieldNames
  moved : ∀ f rules, ((e.detach f).attach f rules).fieldNames = e.fieldNames.filter (· ≠ f) ++ [f]
  /-- The rules of a declared field are read off the text that was attached last. -/
  rules : ∀ f text, FieldStep.lastOn? steps f = some (.attach f text) →
    e.rulesFor f = Rule.readAll text
  no_rules : ∀ f, f ∉ e.fieldNames → e.rulesFor f = []
  /-- What a host is answered when it asks for the rules of a field, whether there is such a field, and
  when it takes one away. -/
  answers : ∀ (h : Host) (n : Nat) (f : String),
    (h.engineStep n e (.rulesFor f)).2.result = .ok (.rules (e.rulesFor f)) ∧
    (h.engineStep n e (.hasField f)).2.result = .ok (.truth (decide (f ∈ e.fieldNames))) ∧
    (h.engineStep n e (.detach f)).2.result = .ok (.truth (decide (f ∈ e.fieldNames)))

/-- The engine has the rules and the order that some steps gave its fields. -/
structure Reflects (e : Engine) (steps : List FieldStep) : Prop where
  nodup : e.fieldNames.Nodup
  lists : FieldStep.Lists steps e.fieldNames
  rules : ∀ f, e.rules? f = (FieldStep.lastOn? steps f).bind FieldStep.rules?

theorem field_of_lastOn? {steps : List FieldStep} {f : String} {s : FieldStep}
    (h : FieldStep.lastOn? steps f = some s) : s.field = f := by
  have hmem := List.mem_of_getLast? h
  simpa using (List.mem_filter.mp hmem).2

theorem Reflects.fieldTable {e : Engine} {steps : List FieldStep} (h : e.Reflects steps) :
    FieldTable steps e := by
  have hdeclared : ∀ f, f ∈ e.fieldNames ↔
      ∃ text, FieldStep.lastOn? steps f = some (.attach f text) := by
    intro f
    have hsome : f ∈ e.fieldNames ↔ (e.rules? f).isSome = true := Table.get?_isSome_iff.symm
    rw [hsome, h.rules f]
    cases hlast : FieldStep.lastOn? steps f with
    | none => simp
    | some s =>
        have hfield := field_of_lastOn? hlast
        cases s with
        | attach g text =>
            obtain rfl : g = f := hfield
            simp [FieldStep.rules?]
        | detach g => simp [FieldStep.rules?]
  refine
    { nodup := h.nodup
      declared := hdeclared
      introduced := ?_
      ordered := h.lists.ordered
      kept := ?_
      moved := ?_
      rules := ?_
      no_rules := fun f hf => rulesFor_of_not_declared hf
      answers := ?_ }
  · intro f hf
    obtain ⟨i, hi⟩ := h.lists.introduced f hf
    exact ⟨i, hi, fun j hj => hj.unique hi⟩
  · intro f rules hf
    rw [fieldNames_attach, if_pos hf]
  · intro f rules
    have hgone : f ∉ (e.detach f).fieldNames := by
      rw [fieldNames_detach]
      simp
    rw [fieldNames_attach, if_neg hgone, fieldNames_detach]
  · intro f text hlast
    rw [rulesFor, h.rules f, hlast]
    rfl
  · intro host n f
    rw [← hasField_eq]
    exact ⟨rfl, rfl, rfl⟩

theorem reflects_nil (locale : Key) (attributes : Table String String) :
    Reflects { locale, attributes } [] :=
  ⟨List.nodup_nil, FieldStep.lists_nil, fun _ => rfl⟩

theorem Reflects.attach {e : Engine} {steps : List FieldStep} (h : e.Reflects steps)
    (f text : String) : (e.attach f (Rule.readAll text)).Reflects (steps ++ [.attach f text]) := by
  refine ⟨Table.nodup_keys_put h.nodup f _, ?_, ?_⟩
  · rw [fieldNames_attach]
    exact FieldStep.listed_concat h.lists (.attach f text)
  · intro g
    have hget : (e.attach f (Rule.readAll text)).rules? g =
        if f = g then some (Rule.readAll text) else e.rules? g := Table.get?_put e.fields f g _
    rw [hget, h.rules g, FieldStep.lastOn?_concat]
    by_cases hfg : f = g <;> simp [FieldStep.field, FieldStep.rules?, hfg]

theorem Reflects.detach {e : Engine} {steps : List FieldStep} (h : e.Reflects steps) (f : String) :
    (e.detach f).Reflects (steps ++ [.detach f]) := by
  refine ⟨Table.nodup_keys_remove h.nodup f, ?_, ?_⟩
  · rw [fieldNames_detach]
    exact FieldStep.listed_concat h.lists (.detach f)
  · intro g
    have hget : (e.detach f).rules? g = if f = g then none else e.rules? g :=
      Table.get?_remove e.fields f g
    rw [hget, h.rules g, FieldStep.lastOn?_concat]
    by_cases hfg : f = g <;> simp [FieldStep.field, FieldStep.rules?, hfg]

/-- What an engine reflects does not depend on its bag or its generations. -/
theorem Reflects.of_fields {e e' : Engine} {steps : List FieldStep} (h : e.Reflects steps)
    (hfields : e'.fields = e.fields) : e'.Reflects steps := by
  have hnames : e'.fieldNames = e.fieldNames := congrArg Table.keys hfields
  have hrules : e'.rules? = e.rules? := by
    funext f
    rw [rules?, rules?, hfields]
  refine ⟨?_, ?_, ?_⟩
  · rw [hnames]
    exact h.nodup
  · rw [hnames]
    exact h.lists
  · rw [hrules]
    exact h.rules

end Engine

namespace Course

/-! ## A course -/

/-- The event is an attachment or a removal. -/
def Event.isFieldStep : Event → Bool
  | .attach _ _ => true
  | .detach _ => true
  | _ => false

/-- No other event changes a field or its rules. -/
theorem fields_step (c : Course) {event : Event} (h : event.isFieldStep = false) :
    (c.step event).engine.fields = c.engine.fields := by
  cases event with
  | attach f rules => cases h
  | detach f => cases h
  | validate f value extra => exact (Engine.sameSetup_validate c.engine c.shared f value extra).fields
  | validateAll values => exact (Engine.sameSetup_validateAll c.engine c.shared values).fields
  | finish job part delivered =>
      cases hwaiting : c.waiting? job part with
      | none => rw [step_finish_of_not_waiting hwaiting]
      | some p =>
          simp only [step, hwaiting]
          exact (Engine.sameSetup_finish c.engine c.shared p _).fields
  | close job =>
      rw [step]
      split <;> rfl
  | extend name supplied => rfl
  | setLocale locale => rfl
  | share shared => rfl

/-- Through any events the engine goes on reflecting the attachments and removals among them. -/
theorem reflects_run {events : List Event} {steps history : List FieldStep} {c : Course}
    (hsteps : events.filter Event.isFieldStep = steps.map FieldStep.event)
    (h : c.engine.Reflects history) : (c.run events).engine.Reflects (history ++ steps) := by
  induction events generalizing c steps history with
  | nil =>
      have hnone : steps = [] := by simpa using hsteps.symm
      rw [hnone, List.append_nil]
      exact h
  | cons event events ih =>
      rw [run_cons]
      cases hfield : event.isFieldStep with
      | false =>
          rw [List.filter_cons_of_neg (by simp [hfield])] at hsteps
          exact ih hsteps (h.of_fields (fields_step c hfield))
      | true =>
          rw [List.filter_cons_of_pos hfield] at hsteps
          cases steps with
          | nil => simp at hsteps
          | cons s steps =>
              rw [List.map_cons, List.cons.injEq] at hsteps
              obtain ⟨rfl, hrest⟩ := hsteps
              have hstep : (c.step s.event).engine.Reflects (history ++ [s]) := by
                cases s with
                | attach f text => exact h.attach f text
                | detach f => exact h.detach f
              have hafter := ih hrest hstep
              rwa [List.append_assoc] at hafter

/-- The fields of an engine follow its attachments and removals, those counted in that it was made with,
whatever else happens to it in between. A validation of all fields leaves the bag in the order of the
fields, at once if nothing is awaited and otherwise when it ends. -/
theorem fields_follow_steps (shared : Shared) (locale : Key) (attributes : Table String String)
    (pairs : List (String × String)) (steps : List FieldStep) (events : List Event)
    (hsteps : events.filter Event.isFieldStep = steps.map FieldStep.event) :
    let made := pairs.map fun p => FieldStep.attach p.1 p.2
    let start := (fresh shared locale attributes).run (made.map FieldStep.event)
    let c := start.run events
    start.engine = Engine.ofRules (pairs.map fun p => (p.1, Rule.readAll p.2)) locale attributes ∧
    Engine.FieldTable (made ++ steps) c.engine ∧
    (∀ values, let after := (c.step (.validateAll values)).engine.bag
      after.entries = c.engine.fieldNames.flatMap after.entriesOf) ∧
    ∀ job, c.isDone job = true → let after := (c.step (.close job)).engine.bag
      after.entries = c.engine.fieldNames.flatMap after.entriesOf := by
  intro made start c
  have hmade : made.map FieldStep.event =
      (pairs.map fun p => (p.1, Rule.readAll p.2)).map fun r => Event.attach r.1 r.2 := by
    simp [made, FieldStep.event]
  have hstart : start.engine.Reflects made := by
    have hall : (made.map FieldStep.event).filter Event.isFieldStep = made.map FieldStep.event := by
      rw [List.filter_eq_self, hmade]
      intro event hevent
      obtain ⟨r, -, rfl⟩ := List.mem_map.mp hevent
      rfl
    have hfresh : (fresh shared locale attributes).engine.Reflects [] :=
      Engine.reflects_nil locale attributes
    exact reflects_run hall hfresh
  have hconsistent : c.Consistent :=
    ((consistent_fresh shared locale attributes).run _).run events
  refine ⟨?_, (reflects_run hsteps hstart).fieldTable, ?_, ?_⟩
  · show ((fresh shared locale attributes).run (made.map FieldStep.event)).engine = _
    rw [hmade]
    exact (run_attach shared _ locale attributes).1
  · intro values
    have hnames : (c.step (.validateAll values)).engine.fieldNames = c.engine.fieldNames :=
      congrArg Table.keys (fields_step c rfl)
    rw [← hnames]
    exact hconsistent.inOrder_validateAll values
  · intro job hdone
    have hnames : (c.step (.close job)).engine.fieldNames = c.engine.fieldNames :=
      congrArg Table.keys (fields_step c rfl)
    rw [← hnames]
    exact hconsistent.inOrder_close hdone

/-- Two fields, of which one is given other rules, and the other is taken away and attached again. -/
def movedPairs : List (String × String) := [("mail", "email"), ("name", "min:3")]

def movedSteps : List FieldStep :=
  [.attach "name" "slow", .detach "mail", .attach "mail" "email"]

/-- Then both are validated, one of them by a rule that puts its answer off. -/
def movedEvents : List Event := [
  .extend "slow" (.predicate fun _ _ => ⟨.later (.gate "g"), []⟩),
  .attach "name" (Rule.readAll "slow"), .detach "mail", .setLocale (.text "fr"),
  .attach "mail" (Rule.readAll "email"), .validateAll fun _ => .null,
  .finish 0 0 fun _ => .ok (.bool false)]

def movedCourse : Course :=
  ((fresh ⟨{}, Dictionary.cleared⟩ (.text "en") []).run
    ((movedPairs.map fun p => FieldStep.attach p.1 p.2).map FieldStep.event)).run movedEvents

/-- The field that was attached again comes last, and so do its entries when the validation of both ends,
although they were recorded first. -/
theorem fields_follow_steps_moved :
    let c := movedCourse
    let after := (c.step (.close 0)).engine.bag
    movedEvents.filter Event.isFieldStep = movedSteps.map FieldStep.event ∧
      Engine.FieldTable ((movedPairs.map fun p => .attach p.1 p.2) ++ movedSteps) c.engine ∧
      c.engine.fieldNames = ["name", "mail"] ∧ c.isDone 0 = true ∧
      c.engine.bag.entries.map (·.field) = ["mail", "name"] ∧
      after.entries = after.entriesOf "name" ++ after.entriesOf "mail" := by
  intro c after
  have hsteps : movedEvents.filter Event.isFieldStep = movedSteps.map FieldStep.event := rfl
  have hnames : movedCourse.engine.fieldNames = ["name", "mail"] := by decide +kernel
  have hdone : movedCourse.isDone 0 = true := by decide +kernel
  have hfields : movedCourse.engine.bag.entries.map (·.field) = ["mail", "name"] := by
    decide +kernel
  have hfollow := fields_follow_steps ⟨{}, Dictionary.cleared⟩ (.text "en") [] movedPairs movedSteps
    movedEvents hsteps
  have hafter : after.entries = movedCourse.engine.fieldNames.flatMap after.entriesOf :=
    hfollow.2.2.2 0 hdone
  rw [hnames] at hafter
  refine ⟨hsteps, hfollow.2.1, hnames, hdone, hfields, ?_⟩
  rw [hafter, List.flatMap_cons, List.flatMap_cons, List.flatMap_nil, List.append_nil]

end Course

end FieldRules
