import FieldRules.Bag.Step
import FieldRules.Proofs.Bag.Order
import Mathlib.Data.List.DropRight

/-!
# A bag over a whole run

What a bag shows of a field after any run of steps is what was added to the field since its entries
were last taken out (`addsSince`), in that order. No other step makes a difference to it, neither what is
done to other fields nor any sorting. Without sorting the bag as a whole is what was added and not taken
out later on (`surviving`).
-/

namespace FieldRules.Bag

namespace Step

/-- The step takes the entries of a field out. -/
def drops (f : String) : Step → Bool
  | remove g => g == f
  | clear => true
  | _ => false

/-- The entry that a step adds. -/
def entry? : Step → Option Entry
  | add e => some e
  | _ => none

/-- The step puts the bag in the order of a list of fields. -/
def sorts : Step → Bool
  | sortByFields _ => true
  | _ => false

end Step

/-- The bag after some steps. -/
def run (b : Bag) (steps : List Step) : Bag := steps.foldl (fun b s => (b.step s).1) b

/-- What the steps add to a field after the last of them that takes its entries out. -/
def addsSince (f : String) (steps : List Step) : List Entry :=
  ((steps.rtakeWhile fun s => !s.drops f).filterMap Step.entry?).filter (·.field == f)

/-- What the steps add and no later one takes out. -/
def surviving : List Step → List Entry
  | [] => []
  | s :: later =>
    (s.entry?.filter fun e => !later.any (·.drops e.field)).toList ++ surviving later

theorem run_concat (b : Bag) (steps : List Step) (s : Step) :
    b.run (steps ++ [s]) = ((b.run steps).step s).1 := by
  unfold run
  rw [List.foldl_concat]

/-! ## One step -/

/-- A step empties a field, or leaves its entries in order and adds behind them. -/
theorem entriesOf_step (b : Bag) (s : Step) (f : String) :
    (b.step s).1.entriesOf f =
      if s.drops f then [] else b.entriesOf f ++ s.entry?.toList.filter (·.field == f) := by
  cases s with
  | add e => simp [step, Step.drops, Step.entry?, add, entriesOf]
  | remove g =>
      by_cases hg : g = f
      · subst hg
        simp [step, Step.drops]
      · have hkept : (b.remove g).entriesOf f = b.entriesOf f :=
          entriesOf_remove_of_ne b (Ne.symm hg)
        simp [step, Step.drops, Step.entry?, hg, hkept]
  | clear => simp [step, Step.drops, empty, entriesOf]
  | sortByFields order => simp [step, Step.drops, Step.entry?]
  | _ => simp [step, Step.drops, Step.entry?]

/-- A step that does not sort takes out the entries of what it drops and adds behind the others. -/
theorem entries_step {s : Step} (hs : s.sorts = false) (b : Bag) :
    (b.step s).1.entries = b.entries.filter (fun e => !s.drops e.field) ++ s.entry?.toList := by
  cases s with
  | add e => simp [step, Step.drops, Step.entry?, add]
  | remove g =>
      have hsame : (fun e : Entry => !(g == e.field)) = fun e => e.field != g := by
        funext e
        rw [bne, Bool.beq_comm]
      simp [step, Step.drops, Step.entry?, remove, hsame]
  | clear => simp [step, Step.drops, Step.entry?, empty]
  | sortByFields order => cases hs
  | _ => simp [step, Step.drops, Step.entry?]

/-! ## The history -/

theorem addsSince_concat (f : String) (steps : List Step) (s : Step) :
    addsSince f (steps ++ [s]) =
      if s.drops f then [] else addsSince f steps ++ s.entry?.toList.filter (·.field == f) := by
  unfold addsSince
  rw [List.rtakeWhile_concat]
  cases hdrops : s.drops f with
  | true => simp
  | false =>
      simp only [Bool.not_false, if_true, Bool.false_eq_true, if_false, List.filterMap_append,
        List.filter_append]
      cases hentry : s.entry? <;> simp [hentry]

theorem surviving_concat (steps : List Step) (s : Step) :
    surviving (steps ++ [s]) =
      (surviving steps).filter (fun e => !s.drops e.field) ++ s.entry?.toList := by
  induction steps with
  | nil => cases hentry : s.entry? <;> simp [surviving, hentry]
  | cons first steps ih =>
      -- What the first step adds outlives the longer run if it outlives the shorter one and the last step.
      have hfirst : (first.entry?.filter fun e => !(steps ++ [s]).any (·.drops e.field)).toList =
          ((first.entry?.filter fun e => !steps.any (·.drops e.field)).toList).filter
            fun e => !s.drops e.field := by
        cases hentry : first.entry? with
        | none => rfl
        | some e =>
            cases hsteps : steps.any (·.drops e.field) <;> cases hlast : s.drops e.field <;>
              simp [Option.filter, hsteps, hlast]
      rw [List.cons_append, surviving, ih, hfirst, surviving, List.filter_append, List.append_assoc]

/-! ## A run -/

/-- The entries of a field are what was added to it since they were last taken out. -/
theorem entriesOf_run (steps : List Step) (f : String) :
    (empty.run steps).entriesOf f = addsSince f steps := by
  induction steps using List.reverseRecOn with
  | nil => rfl
  | append_singleton steps s ih => rw [run_concat, entriesOf_step, addsSince_concat, ih]

/-- Without sorting the bag is what was added and not taken out later on. -/
theorem entries_run {steps : List Step} (h : ∀ s ∈ steps, s.sorts = false) :
    (empty.run steps).entries = surviving steps := by
  induction steps using List.reverseRecOn with
  | nil => rfl
  | append_singleton steps s ih =>
      have hbefore := ih fun t ht => h t (List.mem_append_left _ ht)
      have hlast := h s (List.mem_append_right _ List.mem_cons_self)
      rw [run_concat, entries_step hlast, surviving_concat, hbefore]

/-- After any run of steps a bag has of each field the entries that were added to it since they were last
taken out, in the order in which they were added, and collects their messages. When they are taken out it
answers how many they are. As long as nothing is sorted, the whole bag is what was added and not taken out
later on, in that order. -/
theorem shows_surviving_adds (steps : List Step) :
    (∀ f,
      (empty.run steps).entriesOf f = addsSince f steps ∧
      ((empty.run steps).step (.collect f)).2 = .texts ((addsSince f steps).map (·.message)) ∧
      ((empty.run steps).step (.remove f)).2 = .number (addsSince f steps).length) ∧
    ((∀ s ∈ steps, s.sorts = false) →
      (empty.run steps).entries = surviving steps ∧
      ((empty.run steps).step .all).2 = .texts ((surviving steps).map (·.message))) := by
  constructor
  · intro f
    have hentries := entriesOf_run steps f
    refine ⟨hentries, ?_, ?_⟩
    · rw [← hentries]
      rfl
    · rw [← hentries]
      rfl
  · intro h
    have hentries := entries_run h
    refine ⟨hentries, ?_⟩
    rw [← hentries]
    rfl

/-- Of two equal entries and one that was taken out, the equal ones are left, around that of another
field. -/
theorem shows_surviving_adds_name :
    let short : Entry := ⟨"name", "too short", some "min"⟩
    let mail : Entry := ⟨"email", "no address", some "email"⟩
    let steps : List Step := [.add ⟨"name", "missing", none⟩, .remove "name", .add short, .add mail,
      .add short]
    (∀ s ∈ steps, s.sorts = false) ∧ (empty.run steps).entries = [short, mail, short] ∧
      ((empty.run steps).step .all).2 = .texts ["too short", "no address", "too short"] := by
  intro short mail steps
  have hsorts : ∀ s ∈ steps, s.sorts = false := by decide
  exact ⟨hsorts, (shows_surviving_adds steps).2 hsorts⟩

end FieldRules.Bag
