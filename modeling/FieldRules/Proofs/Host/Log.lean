import FieldRules.Host.Step

/-!
# The log of a run

What happens in a run of a host, step by step: each step with the host that it finds and what it
answers. A fact about a whole session is a fact about its log.
-/

namespace FieldRules

/-- A step with the host before it and the answer. -/
structure Happening where
  before : Host
  step : Step
  answer : Except Fault Reply

/-- The step as it happens to a host. -/
def Happening.of (h : Host) (s : Step) : Happening := ⟨h, s, (h.step s).2.result⟩

/-- The host after a happening. -/
def Happening.after (x : Happening) : Host := (x.before.step x.step).1

namespace Host

/-- What happens in a run, in order. -/
def log (h : Host) : List Step → List Happening
  | [] => []
  | s :: ss => .of h s :: log (h.step s).1 ss

theorem run_append (h : Host) (ss ss' : List Step) :
    (h.run (ss ++ ss')).1 = ((h.run ss).1.run ss').1 := by
  induction ss generalizing h with
  | nil => rfl
  | cons s ss ih => exact ih _

theorem log_append (h : Host) (ss ss' : List Step) :
    h.log (ss ++ ss') = h.log ss ++ (h.run ss).1.log ss' := by
  induction ss generalizing h with
  | nil => rfl
  | cons s ss ih => exact congrArg _ (ih _)

theorem run_concat (h : Host) (ss : List Step) (s : Step) :
    (h.run (ss ++ [s])).1 = ((h.run ss).1.step s).1 := h.run_append ss [s]

theorem log_concat (h : Host) (ss : List Step) (s : Step) :
    h.log (ss ++ [s]) = h.log ss ++ [.of (h.run ss).1 s] := h.log_append ss [s]

/-- The log of a run tells what the run answers. -/
theorem answer_log (h : Host) (ss : List Step) :
    (h.log ss).map (·.answer) = (h.run ss).2.map (·.result) := by
  induction ss generalizing h with
  | nil => rfl
  | cons s ss ih => exact congrArg _ (ih _)

/-- What is in a log happened to the host that the steps before it had led to. -/
theorem exists_of_mem_log {h : Host} {steps : List Step} {x : Happening} (hx : x ∈ h.log steps) :
    ∃ before s later, steps = before ++ s :: later ∧ x = .of (h.run before).1 s := by
  induction steps generalizing h with
  | nil => simp [log] at hx
  | cons s steps ih =>
      rcases List.mem_cons.mp hx with rfl | hx
      · exact ⟨[], s, steps, rfl, rfl⟩
      · obtain ⟨before, s', later, rfl, rfl⟩ := ih hx
        exact ⟨s :: before, s', later, rfl, rfl⟩

/-- What holds of every step holds of every happening in a log. -/
theorem forall_mem_log {P : Happening → Prop} (hP : ∀ h s, P (.of h s)) (h : Host) (steps : List Step) :
    ∀ x ∈ h.log steps, P x := by
  induction steps generalizing h with
  | nil => simp [log]
  | cons s steps ih =>
      intro x hx
      rcases List.mem_cons.mp hx with rfl | hx
      · exact hP h s
      · exact ih _ x hx

end Host

end FieldRules
