import FieldRules.Engine.Job

/-!
# Joining

What was waited for comes as one list, shorter than the list of all works, and is put back between the
results that were known. `join?_eq_mapM` says what comes of it: each work has its own result, in its own
place, and the list is there once every work has its result. So nothing that is proved about jobs has to
look at the way back.
-/

namespace FieldRules

section

variable {α : Type} {known? result? : α → Option Bool}

/-- A known result takes nothing from what was waited for. -/
theorem rejoin_cons_known {x : α} {passed : Bool} (h : known? x = some passed) (xs : List α)
    (awaited : List Bool) :
    rejoin known? (x :: xs) awaited = (rejoin known? xs awaited).map (passed :: ·) := by
  simp only [rejoin, h]

/-- What is not known takes the next result. -/
theorem rejoin_cons_awaited {x : α} (h : known? x = none) (xs : List α) (passed : Bool)
    (later : List Bool) :
    rejoin known? (x :: xs) (passed :: later) = (rejoin known? xs later).map (passed :: ·) := by
  simp only [rejoin, h]

/-- The results come out in the places of the works that they belong to, whatever is known and whatever
was waited for. -/
theorem join?_eq_mapM (hknown : ∀ x passed, known? x = some passed → result? x = some passed)
    (xs : List α) : join? known? result? xs = xs.mapM result? := by
  induction xs with
  | nil => rfl
  | cons x xs ih =>
      rw [List.mapM_cons, ← ih]
      unfold join?
      cases hx : known? x with
      | some passed =>
          rw [List.filter_cons_of_neg (by simp [hx]), hknown x passed hx]
          cases (xs.filter fun x => (known? x).isNone).mapM result? with
          | none => rfl
          | some awaited => exact (rejoin_cons_known hx xs awaited).trans Option.map_eq_bind
      | none =>
          rw [List.filter_cons_of_pos (by simp [hx]), List.mapM_cons]
          cases result? x with
          | none => rfl
          | some passed =>
              cases (xs.filter fun x => (known? x).isNone).mapM result? with
              | none => rfl
              | some later =>
                  exact (rejoin_cons_awaited hx xs passed later).trans Option.map_eq_bind

end

/-- The results of calls are those that each call has by itself. -/
theorem settle?_eq_mapM (gates : Gates) (calls : List Progress) :
    settle? gates calls = calls.mapM (Progress.passed? gates) := by
  apply join?_eq_mapM
  intro p passed h
  cases p with
  | known b => exact h
  | landed b => simp [Progress.known?] at h
  | waits g => simp [Progress.known?] at h

/-- The results of the parts of a job are those that each part has by itself. -/
theorem Job.results?_eq_mapM (j : Job) : j.results? = j.parts.mapM Job.endedPart? := by
  apply join?_eq_mapM
  intro part passed h
  cases part with
  | known b => exact h
  | ended b => simp [Job.knownPart?] at h
  | waiting p => simp [Job.knownPart?] at h
  | running p progress => simp [Job.knownPart?] at h

end FieldRules
