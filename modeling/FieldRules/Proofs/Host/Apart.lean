import FieldRules.Proofs.Host.Handles
import FieldRules.Proofs.Host.StepWithout
import FieldRules.Yaml.Reader

/-!
# Engines do not interfere

The steps of one engine are left out of a session: its creation, what is asked of it, the waiting for
its results, and what is asked about its owner. What is left comes to the same for every other engine
(`engines_apart`): the same answers, results and notes in the same order, the same bags with their
messages, fields and overlays, and the same catalog and dictionary.

Engines and jobs that come later move up when an engine is left out, so they have other numbers then
(`slot`, `handle?`). A name may pass from one engine to another in a session; so that a name is no other
engine's once the engine is left out, each engine has a name of its own, which makes no difference
(`run_labelled`).
-/

namespace FieldRules

variable {a : Nat} {label : Nat → String}

/-- The steps of a session that are left without an engine. -/
def stepsWithout (a : Nat) (log : List Happening) : List Step :=
  (log.filter fun x => !x.step.isOf a x.before).map fun x => x.step.without a x.before

/-- The answers of the steps that are left without an engine. -/
def answersWithout (a : Nat) (log : List Happening) : List (Noted (Except Fault Reply)) :=
  (log.filter fun x => !x.step.isOf a x.before).map fun x => x.before.answerWithout a x.step

theorem stepsWithout_cons (h : Host) (s : Step) (log : List Happening) :
    stepsWithout a (.of h s :: log) =
      if s.isOf a h then stepsWithout a log else s.without a h :: stepsWithout a log := by
  simp only [stepsWithout, List.filter_cons, Happening.of]
  cases s.isOf a h <;> rfl

theorem answersWithout_cons (h : Host) (s : Step) (log : List Happening) :
    answersWithout a (.of h s :: log) =
      if s.isOf a h then answersWithout a log else h.answerWithout a s :: answersWithout a log := by
  simp only [answersWithout, List.filter_cons, Happening.of]
  cases s.isOf a h <;> rfl

namespace Host

variable {h : Host}

/-- While no name passes between the engine and others, what is left of a session does without the engine
what it does with it. -/
theorem run_without (hq : h.Quiet) (hreg : h.Registered) (steps : List Step)
    (hstay : ∀ x ∈ h.log steps, NamesStay a x.before x.after) :
    (h.without a).run (stepsWithout a (h.log steps)) =
      ((h.run steps).1.without a, answersWithout a (h.log steps)) := by
  induction steps generalizing h with
  | nil => rfl
  | cons s ss ih =>
      obtain ⟨hfirst, hlater⟩ := List.forall_mem_cons.mp hstay
      have hhere : NamesStay a h (h.step s).1 := hfirst
      have hrest := ih (hq.step s) (hreg.step s) hlater
      rw [log, stepsWithout_cons, answersWithout_cons]
      cases hs : s.isOf a h with
      | true =>
          have hsame : (h.step s).1.without a = h.without a := without_step_self hq hreg hhere hs
          rw [hsame] at hrest
          exact hrest
      | false =>
          have hstep := step_without hq.ready hhere hs
          simp only [Bool.false_eq_true, if_false, run, hstep, hrest]

/-- No name passes between engines that have names of their own. -/
theorem namesStay_labelled (hlabel : Function.Injective label) (h h' : Host) :
    NamesStay a (h.labelled label) (h'.labelled label) := by
  intro name n m hn hm
  have hsame : n = m :=
    hlabel ((name_of_number?_labelled hn).symm.trans (name_of_number?_labelled hm))
  rw [hsame]

/-- What is left of a session without an engine does to all others what the session does. -/
structure Apart (yaml : YamlReader) (label : Nat → String) (a : Nat) (steps : List Step) : Prop where
  /-- With a name for each engine the session does the same. -/
  named : (fresh yaml).run (stepsLabelled label ((fresh yaml).log steps)) =
    (((fresh yaml).run steps).1.labelled label, answersLabelled label ((fresh yaml).log steps))
  /-- The steps that are left answer the same, but for the numbers of jobs. -/
  answers :
    ((fresh yaml).run (stepsWithout a ((fresh yaml).log (stepsLabelled label ((fresh yaml).log steps))))).2 =
      answersWithout a ((fresh yaml).log (stepsLabelled label ((fresh yaml).log steps)))
  /-- The other engines are the same: their fields, locales, overlays and bags. -/
  engines : ∀ b, b ≠ a →
    ((fresh yaml).run (stepsWithout a ((fresh yaml).log (stepsLabelled label
      ((fresh yaml).log steps))))).1.engines[slot a b]? = ((fresh yaml).run steps).1.engines[b]?
  /-- The jobs of the other engines have come as far. -/
  jobs :
    ((fresh yaml).run (stepsWithout a ((fresh yaml).log (stepsLabelled label
      ((fresh yaml).log steps))))).1.jobs =
      ((fresh yaml).run steps).1.jobs.filterMap (Awaited.without? a)
  /-- The catalog and the dictionary are the same. -/
  shared :
    ((fresh yaml).run (stepsWithout a ((fresh yaml).log (stepsLabelled label
      ((fresh yaml).log steps))))).1.shared =
      ((fresh yaml).run steps).1.shared

/-- In every session, whatever engine is left out, the others do not notice. -/
theorem engines_apart (yaml : YamlReader) (hlabel : Function.Injective label) (a : Nat)
    (steps : List Step) : Apart yaml label a steps := by
  have hnamed := run_labelled hlabel (registered_fresh yaml) steps
  have hstay : ∀ x ∈ (fresh yaml).log (stepsLabelled label ((fresh yaml).log steps)),
      NamesStay a x.before x.after := by
    intro x hx
    obtain ⟨before, after, hbefore, hafter⟩ := labelled_of_mem_log hlabel (registered_fresh yaml) steps x hx
    rw [hbefore, hafter]
    exact namesStay_labelled hlabel before after
  have hleft := run_without (quiet_fresh yaml) (registered_fresh yaml) _ hstay
  have hnone : (fresh yaml).without a = fresh yaml := rfl
  have hafter : ((fresh yaml).run (stepsLabelled label ((fresh yaml).log steps))).1 =
      ((fresh yaml).run steps).1.labelled label := congrArg Prod.fst hnamed
  rw [hnone, hafter] at hleft
  constructor
  · exact hnamed
  · rw [hleft]
  · intro b hb
    rw [hleft]
    exact getElem?_eraseIdx_slot _ hb
  · rw [hleft]
    rfl
  · rw [hleft]
    rfl

/-- Names that tell engines apart by their length. -/
def lengthLabel (n : Nat) : String := String.ofList (List.replicate n 'e')

theorem lengthLabel_injective : Function.Injective lengthLabel := by
  intro n m h
  simpa [lengthLabel] using congrArg (fun s : String => s.toList.length) h

/-- A session in which a form is made anew under the same name. -/
def renewedForm : List Step :=
  [.create "form" (Engine.ofRules [] (.text englishLocale) []),
    .engine "form" (.setLocale (.text "fr")),
    .create "form" (Engine.ofRules [] (.text englishLocale) []),
    .engine "form" (.setLocale (.text "de"))]

/-- Without the first form, the second is as it was; and so is the first without the second. -/
theorem engines_apart_renewedForm :
    Function.Injective lengthLabel ∧ Apart Yaml.reader lengthLabel 0 renewedForm ∧
      Apart Yaml.reader lengthLabel 1 renewedForm ∧
      (((fresh Yaml.reader).run renewedForm).1.engines.map (·.locale)) = [.text "fr", .text "de"] ∧
      (((fresh Yaml.reader).run (stepsWithout 1 ((fresh Yaml.reader).log (stepsLabelled lengthLabel
        ((fresh Yaml.reader).log renewedForm))))).1.engines.map (·.locale)) = [.text "fr"] :=
  ⟨lengthLabel_injective, engines_apart _ lengthLabel_injective 0 renewedForm,
    engines_apart _ lengthLabel_injective 1 renewedForm, by decide, by decide⟩

end Host

end FieldRules
