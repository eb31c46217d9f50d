import FieldRules.Proofs.Bag.Order
import FieldRules.Proofs.Engine.Course
import Mathlib.Logic.Relation

/-!
# Moves

Every event of a course is made of a few kinds of moves, each of which bears on one field at most.
`Move` lists them with all that they do; what holds of a course is shown for each move and then
holds after every event (`step_moves`).

`Tracks` is the invariant that ties the three parts of a course together: the bag shows the latest
step of every field, a validation that is the latest of its field is of the field's generation, and
a validation of the field's generation is the latest.
-/

namespace FieldRules

namespace Course

/-- What matters of a course: the engine, the latest steps, and the validations that wait, by job
and part. -/
structure View where
  engine : Engine
  latest : String → Latest
  live : Nat → Nat → Option PendingField

/-- What matters of a course. -/
def view (c : Course) : View := ⟨c.engine, c.latest, c.waiting?⟩

/-- Puts a validation, or none, in the place of a part of a job. -/
def setLive (live : Nat → Nat → Option PendingField) (job part : Nat) (new : Option PendingField) :
    Nat → Nat → Option PendingField :=
  fun j k => if j = job ∧ k = part then new else live j k

@[simp] theorem setLive_self (live : Nat → Nat → Option PendingField) (job part : Nat)
    (new : Option PendingField) : setLive live job part new job part = new := by
  simp [setLive]

theorem setLive_of_ne (live : Nat → Nat → Option PendingField) {job part j k : Nat}
    (h : ¬ (j = job ∧ k = part)) (new : Option PendingField) :
    setLive live job part new j k = live j k := by
  simp [setLive, h]

/-- The engine with other entries for a field, at the end of the bag. -/
def replaceEntries (e : Engine) (field : String) (es : List Entry) : Engine :=
  { e with bag := es.foldl Bag.add (e.bag.remove field) }

/-- One move of a course. -/
inductive Move : View → View → Prop where
  /-- A field gets rules. -/
  | attach (v : View) (field : String) (rules : List Rule) :
      Move v ⟨v.engine.attach field rules, Function.update v.latest field .attached, v.live⟩
  /-- A field is taken away. -/
  | detach (v : View) (field : String) :
      Move v ⟨v.engine.detach field, Function.update v.latest field .detached, v.live⟩
  /-- A validation calls nothing. -/
  | skip (v : View) (field : String) (new : Latest) (h : new = .undeclared ∨ new = .refused) :
      Move v ⟨v.engine.renew field, Function.update v.latest field new, v.live⟩
  /-- A validation is recorded at once. -/
  | judge (v : View) (field : String) (calls : List RuleCall) (passed : List Bool)
      (message : RuleCall → String)
      (hrules : v.engine.rules? field = some (calls.map (·.rule)))
      (hlength : passed.length = calls.length) :
      Move v ⟨replaceEntries (v.engine.renew field) field (entriesFor field message calls passed),
        Function.update v.latest field (.recorded calls passed message), v.live⟩
  /-- A validation has to wait, as a part of a job that is not taken. -/
  | wait (v : View) (field : String) (calls : List RuleCall) (job part : Nat)
      (hrules : v.engine.rules? field = some (calls.map (·.rule)))
      (hfree : v.live job part = none) :
      Move v ⟨v.engine.renew field, Function.update v.latest field (.pending job part calls),
        setLive v.live job part
          (some { field, generation := v.engine.generation field + 1, calls })⟩
  /-- A validation that is the latest of its field ends. -/
  | record (v : View) (job part : Nat) (p : PendingField) (passed : List Bool)
      (message : RuleCall → String) (hlive : v.live job part = some p)
      (hlatest : v.latest p.field = .pending job part p.calls)
      (hlength : passed.length = p.calls.length) :
      Move v ⟨replaceEntries v.engine p.field (entriesFor p.field message p.calls passed),
        Function.update v.latest p.field (.recorded p.calls passed message),
        setLive v.live job part none⟩
  /-- A validation that is not the latest of its field ends. -/
  | drop (v : View) (job part : Nat) (p : PendingField) (hlive : v.live job part = some p)
      (hlatest : v.latest p.field ≠ .pending job part p.calls) :
      Move v ⟨v.engine, v.latest, setLive v.live job part none⟩
  /-- The bag is put in order. -/
  | sort (v : View) : Move v ⟨v.engine.sortBag, v.latest, v.live⟩
  /-- Nothing changes but the locale and the overlay. -/
  | retune (v : View) (locale : Key) (overlay : Overlay) :
      Move v ⟨{ v.engine with locale, overlay }, v.latest, v.live⟩

/-- Moves one after the other. -/
abbrev Moves : View → View → Prop := Relation.ReflTransGen Move

/-! ## The invariant -/

/-- The bag, the generations and the validations that wait agree with the latest steps. -/
structure Tracks (engine : Engine) (latest : String → Latest)
    (live : Nat → Nat → Option PendingField) : Prop where
  /-- The entries of a field are those of its latest step. -/
  shown : ∀ f, engine.bag.entriesOf f = (latest f).entries f
  /-- A latest step that is pending waits, and is of the field's generation. -/
  current : ∀ f j k calls, latest f = .pending j k calls →
    ∃ p, live j k = some p ∧ p.field = f ∧ p.generation = engine.generation f ∧ p.calls = calls
  /-- What waits is of the field's generation only if it is the latest step. -/
  older : ∀ j k p, live j k = some p → p.generation ≤ engine.generation p.field ∧
    (p.generation = engine.generation p.field → latest p.field = .pending j k p.calls)
  /-- The latest validation called the rules that the field has. -/
  made : ∀ f calls, (latest f).calls? = some calls → engine.rules? f = some (calls.map (·.rule))
  /-- There is a result for every call. -/
  complete : ∀ f calls passed message, latest f = .recorded calls passed message →
    passed.length = calls.length

/-- The invariant of what matters of a course. -/
abbrev View.Tracks (v : View) : Prop := Course.Tracks v.engine v.latest v.live

theorem tracks_fresh (shared : Shared) (locale : Key) (attributes : Table String String) :
    (fresh shared locale attributes).view.Tracks where
  shown := by intro f; rfl
  current := by intro f j k calls h; simp [view, fresh] at h
  older := by intro j k p h; simp [view, fresh, waiting?, part?] at h
  made := by intro f calls h; simp [view, fresh, Latest.calls?] at h
  complete := by intro f calls passed message h; simp [view, fresh] at h

/-! ## What moves keep -/

theorem Latest.field_of_mem_entries {field : String} {l : Latest} :
    ∀ x ∈ l.entries field, x.field = field := by
  intro x hx
  cases l with
  | recorded calls passed message => exact field_of_mem_entriesFor x hx
  | _ => simp [Latest.entries] at hx

variable {engine : Engine} {latest : String → Latest} {live : Nat → Nat → Option PendingField}

/-- A field whose generation is new starts over: whatever waits for it is of an older generation,
unless it starts waiting now. -/
theorem Tracks.renewed (h : Tracks engine latest live) {f : String} {new : Latest} {e : Engine}
    {live' : Nat → Nat → Option PendingField}
    (hbag : e.bag = (new.entries f).foldl Bag.add (engine.bag.remove f))
    (hgen : ∀ g, e.generation g =
      if f = g then engine.generation f + 1 else engine.generation g)
    (hrules : ∀ g, g ≠ f → e.rules? g = engine.rules? g)
    (hmade : ∀ calls, new.calls? = some calls → e.rules? f = some (calls.map (·.rule)))
    (hcomplete : ∀ calls passed message, new = .recorded calls passed message →
      passed.length = calls.length)
    (hkept : ∀ j k p, live j k = some p → live' j k = some p)
    (hlive : ∀ j k p, live' j k = some p → live j k = some p ∨
      (p.field = f ∧ p.generation = engine.generation f + 1 ∧ new = .pending j k p.calls))
    (hcurrent : ∀ j k calls, new = .pending j k calls → ∃ p, live' j k = some p ∧ p.field = f ∧
      p.generation = engine.generation f + 1 ∧ p.calls = calls) :
    Tracks e (Function.update latest f new) live' where
  shown := by
    intro g
    simp only [hbag]
    by_cases hg : g = f
    · subst hg
      rw [Function.update_self, Bag.entriesOf_foldl_add_self _ Latest.field_of_mem_entries,
        Bag.entriesOf_remove_self, List.nil_append]
    · rw [Function.update_of_ne hg, Bag.entriesOf_foldl_add_of_ne _ Latest.field_of_mem_entries hg,
        Bag.entriesOf_remove_of_ne _ hg]
      exact h.shown g
  current := by
    intro g j k calls hg
    by_cases hgf : g = f
    · subst hgf
      rw [Function.update_self] at hg
      obtain ⟨p, hp, hfield, hpgen, hcalls⟩ := hcurrent j k calls hg
      exact ⟨p, hp, hfield, by rw [hpgen, hgen, if_pos rfl], hcalls⟩
    · rw [Function.update_of_ne hgf] at hg
      obtain ⟨p, hp, hfield, hpgen, hcalls⟩ := h.current g j k calls hg
      exact ⟨p, hkept j k p hp, hfield, by rw [hpgen, hgen, if_neg (Ne.symm hgf)], hcalls⟩
  older := by
    intro j k p hp
    rcases hlive j k p hp with hold | ⟨hfield, hpgen, hnew⟩
    · obtain ⟨hle, hlatest⟩ := h.older j k p hold
      by_cases hf : p.field = f
      · -- What waited for the field is now of an older generation than the field.
        have hgenf : e.generation p.field = engine.generation p.field + 1 := by
          rw [hgen, if_pos hf.symm, hf]
        constructor
        · omega
        · intro heq
          omega
      · have hgenf : e.generation p.field = engine.generation p.field := by
          rw [hgen, if_neg (Ne.symm hf)]
        rw [hgenf]
        refine ⟨hle, fun heq => ?_⟩
        simp only [Function.update_of_ne hf]
        exact hlatest heq
    · have hgenf : e.generation p.field = p.generation := by
        rw [hpgen, hgen, if_pos hfield.symm]
      refine ⟨Nat.le_of_eq hgenf.symm, fun _ => ?_⟩
      simp only [hfield, Function.update_self]
      exact hnew
  made := by
    intro g calls hg
    by_cases hgf : g = f
    · subst hgf
      rw [Function.update_self] at hg
      exact hmade calls hg
    · rw [Function.update_of_ne hgf] at hg
      exact (hrules g hgf).trans (h.made g calls hg)
  complete := by
    intro g calls passed message hg
    by_cases hgf : g = f
    · subst hgf
      rw [Function.update_self] at hg
      exact hcomplete calls passed message hg
    · rw [Function.update_of_ne hgf] at hg
      exact h.complete g calls passed message hg

/-- The latest validation of a field ends: its entries come in, and nothing else waits for the
field's generation. -/
theorem Tracks.recorded (h : Tracks engine latest live) {j k : Nat} {p : PendingField}
    {passed : List Bool} {message : RuleCall → String} (hlive : live j k = some p)
    (hlatest : latest p.field = .pending j k p.calls)
    (hlength : passed.length = p.calls.length) :
    Tracks (replaceEntries engine p.field (entriesFor p.field message p.calls passed))
      (Function.update latest p.field (.recorded p.calls passed message))
      (setLive live j k none) where
  shown := by
    intro g
    simp only [replaceEntries]
    by_cases hg : g = p.field
    · subst hg
      rw [Function.update_self, Bag.entriesOf_foldl_add_self _ field_of_mem_entriesFor,
        Bag.entriesOf_remove_self, List.nil_append]
      rfl
    · rw [Function.update_of_ne hg, Bag.entriesOf_foldl_add_of_ne _ field_of_mem_entriesFor hg,
        Bag.entriesOf_remove_of_ne _ hg]
      exact h.shown g
  current := by
    intro g j' k' calls hg
    by_cases hgf : g = p.field
    · subst hgf
      simp at hg
    · rw [Function.update_of_ne hgf] at hg
      obtain ⟨q, hq, hfield, hqgen, hcalls⟩ := h.current g j' k' calls hg
      -- What ends is of another field, so this one goes on waiting.
      have hother : ¬ (j' = j ∧ k' = k) := by
        rintro ⟨rfl, rfl⟩
        rw [hlive, Option.some.injEq] at hq
        exact hgf (hq ▸ hfield.symm)
      exact ⟨q, by rw [setLive_of_ne _ hother]; exact hq, hfield, hqgen, hcalls⟩
  older := by
    intro j' k' q hq
    have hother : ¬ (j' = j ∧ k' = k) := by
      rintro ⟨rfl, rfl⟩
      simp at hq
    rw [setLive_of_ne _ hother] at hq
    obtain ⟨hle, hq'⟩ := h.older j' k' q hq
    refine ⟨hle, fun heq => ?_⟩
    have hpending := hq' heq
    by_cases hfield : q.field = p.field
    · -- Two validations cannot both be the latest of the field.
      rw [hfield, hlatest] at hpending
      simp only [Latest.pending.injEq] at hpending
      exact absurd ⟨hpending.1.symm, hpending.2.1.symm⟩ hother
    · simp only [Function.update_of_ne hfield]
      exact hpending
  made := by
    intro g calls hg
    by_cases hgf : g = p.field
    · subst hgf
      simp only [Function.update_self, Latest.calls?, Option.some.injEq] at hg
      subst hg
      exact h.made _ _ (by rw [hlatest]; rfl)
    · rw [Function.update_of_ne hgf] at hg
      exact h.made g calls hg
  complete := by
    intro g calls passed' message' hg
    by_cases hgf : g = p.field
    · subst hgf
      simp only [Function.update_self, Latest.recorded.injEq] at hg
      rw [← hg.1, ← hg.2.1]
      exact hlength
    · rw [Function.update_of_ne hgf] at hg
      exact h.complete g calls passed' message' hg

/-- A validation that is not the latest of its field ends without a trace. -/
theorem Tracks.dropped (h : Tracks engine latest live) {j k : Nat} {p : PendingField}
    (hlive : live j k = some p) (hlatest : latest p.field ≠ .pending j k p.calls) :
    Tracks engine latest (setLive live j k none) where
  shown := h.shown
  current := by
    intro g j' k' calls hg
    obtain ⟨q, hq, hfield, hqgen, hcalls⟩ := h.current g j' k' calls hg
    have hother : ¬ (j' = j ∧ k' = k) := by
      rintro ⟨rfl, rfl⟩
      rw [hlive, Option.some.injEq] at hq
      subst hq
      rw [hfield, hcalls] at hlatest
      exact hlatest hg
    exact ⟨q, by rw [setLive_of_ne _ hother]; exact hq, hfield, hqgen, hcalls⟩
  older := by
    intro j' k' q hq
    have hother : ¬ (j' = j ∧ k' = k) := by
      rintro ⟨rfl, rfl⟩
      simp at hq
    rw [setLive_of_ne _ hother] at hq
    exact h.older j' k' q hq
  made := h.made
  complete := h.complete

theorem Tracks.move {v w : View} (h : v.Tracks) (hmove : Move v w) : w.Tracks := by
  cases hmove with
  | attach field rules =>
      refine h.renewed rfl (Engine.generation_attach v.engine field rules) ?_ (by simp [Latest.calls?])
        (by simp) (fun _ _ _ hp => hp) (fun _ _ _ hp => Or.inl hp) (by simp)
      intro g hg
      exact Table.get?_put_of_ne _ (Ne.symm hg) _
  | detach field =>
      refine h.renewed rfl (Engine.generation_detach v.engine field) ?_ (by simp [Latest.calls?])
        (by simp) (fun _ _ _ hp => hp) (fun _ _ _ hp => Or.inl hp) (by simp)
      intro g hg
      exact (Table.get?_remove _ _ _).trans (if_neg (Ne.symm hg))
  | skip field new hnew =>
      have hentries : new.entries field = [] := by rcases hnew with rfl | rfl <;> rfl
      have hcalls : new.calls? = none := by rcases hnew with rfl | rfl <;> rfl
      refine h.renewed ?_ (Engine.generation_renew v.engine field) (fun _ _ => rfl) ?_ ?_
        (fun _ _ _ hp => hp) (fun _ _ _ hp => Or.inl hp) ?_
      · rw [hentries]
        rfl
      · simp [hcalls]
      · rcases hnew with rfl | rfl <;> simp
      · rcases hnew with rfl | rfl <;> simp
  | judge field calls passed message hrules hlength =>
      refine h.renewed ?_ (Engine.generation_renew v.engine field) (fun _ _ => rfl) ?_ ?_
        (fun _ _ _ hp => hp) (fun _ _ _ hp => Or.inl hp) (by simp)
      · simp [replaceEntries, Engine.renew, Latest.entries]
      · intro calls' hcalls'
        simp only [Latest.calls?, Option.some.injEq] at hcalls'
        rw [← hcalls']
        exact hrules
      · intro calls' passed' message' heq
        simp only [Latest.recorded.injEq] at heq
        rw [← heq.1, ← heq.2.1]
        exact hlength
  | wait field calls job part hrules hfree =>
      show Course.Tracks (v.engine.renew field)
        (Function.update v.latest field (.pending job part calls)) (setLive v.live job part _)
      refine h.renewed rfl (Engine.generation_renew v.engine field) (fun _ _ => rfl) ?_ (by simp)
        ?_ ?_ ?_
      · intro calls' hcalls'
        simp only [Latest.calls?, Option.some.injEq] at hcalls'
        rw [← hcalls']
        exact hrules
      · intro j k p hp
        have hother : ¬ (j = job ∧ k = part) := by
          rintro ⟨rfl, rfl⟩
          rw [hfree] at hp
          exact absurd hp (by simp)
        rw [setLive_of_ne _ hother]
        exact hp
      · intro j k p hp
        by_cases hslot : j = job ∧ k = part
        · obtain ⟨rfl, rfl⟩ := hslot
          rw [setLive_self, Option.some.injEq] at hp
          subst hp
          exact Or.inr ⟨rfl, rfl, rfl⟩
        · rw [setLive_of_ne _ hslot] at hp
          exact Or.inl hp
      · intro j k calls' heq
        simp only [Latest.pending.injEq] at heq
        obtain ⟨rfl, rfl, rfl⟩ := heq
        exact ⟨_, setLive_self _ _ _ _, rfl, rfl, rfl⟩
  | record job part p passed message hlive hlatest hlength =>
      exact h.recorded hlive hlatest hlength
  | drop job part p hlive hlatest => exact h.dropped hlive hlatest
  | sort =>
      refine ⟨fun f => ?_, h.current, h.older, h.made, h.complete⟩
      exact (Bag.entriesOf_sortByFields _ _ f).trans (h.shown f)
  | retune locale overlay => exact ⟨h.shown, h.current, h.older, h.made, h.complete⟩

theorem Tracks.moves {v w : View} (h : v.Tracks) (hmoves : Moves v w) : w.Tracks := by
  induction hmoves with
  | refl => exact h
  | tail _ hmove ih => exact ih.move hmove

end Course

end FieldRules
