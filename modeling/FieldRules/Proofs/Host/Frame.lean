import FieldRules.Host.Step
import FieldRules.Proofs.Engine.Steps

/-!
# What a host leaves alone

While a host starts jobs, lets them go on and closes them, nothing changes but the jobs, and of the
engines their bags and generations at most (`keeps_settle`). What engines share changes in steps of the
catalog and of the dictionary only, and registering an owner adds an engine at most.
-/

namespace FieldRules

/-! ## Engines -/

/-- The engine apart from its bag and its generations. -/
def Engine.setup (e : Engine) : Engine := { e with bag := {}, generations := [] }

theorem Engine.SameSetup.setup {e e' : Engine} (h : SameSetup e e') : e'.setup = e.setup := by
  rw [h]
  rfl

theorem Engine.sameSetup_finish (e : Engine) (shared : Shared) (p : PendingField)
    (passed : List Bool) : SameSetup e (e.finish shared p passed).1 := by
  by_cases hgen : e.generation p.field = p.generation
  · rw [finish_current hgen]
    rfl
  · rw [finish_stale hgen]
    exact SameSetup.refl e

theorem Job.sameSetup_endPart (gates : Gates) (shared : Shared) (e : Engine) (part : JobPart) :
    Engine.SameSetup e (endPart gates shared e part).1 := by
  cases part with
  | running p progress =>
      simp only [endPart]
      split
      · exact Engine.SameSetup.refl e
      · exact Engine.sameSetup_finish e shared p _
  | _ => exact Engine.SameSetup.refl e

theorem Job.sameSetup_endParts (gates : Gates) (shared : Shared) (e : Engine)
    (parts : List JobPart) : Engine.SameSetup e (endParts gates shared e parts).1 := by
  induction parts generalizing e with
  | nil => exact Engine.SameSetup.refl e
  | cons part rest ih => exact (sameSetup_endPart gates shared e part).trans (ih _)

theorem Engine.sameSetup_validateAll (e : Engine) (shared : Shared) (values : String → Value) :
    SameSetup e (e.validateAll shared values).1 := by
  have heach := sameSetup_validateEach shared values e e.fieldNames
  cases hany : (validateEach shared values e e.fieldNames).2.result.any isPending with
  | true =>
      rw [(validateAll_pending hany).1]
      exact heach
  | false =>
      rw [(validateAll_known hany).1]
      exact heach.trans rfl

namespace Host

/-- The engines apart from their bags and generations. -/
def setups (h : Host) : List Engine := h.engines.map Engine.setup

/-- Nothing but the jobs, the bags and the generations of engines has changed. -/
structure Keeps (h h' : Host) : Prop where
  frame : h' = { h with engines := h'.engines, jobs := h'.jobs, started := h'.started }
  setups : h'.setups = h.setups

variable {h h' h'' : Host}

theorem Keeps.refl (h : Host) : h.Keeps h := ⟨rfl, rfl⟩

theorem Keeps.trans (hk : h.Keeps h') (hk' : h'.Keeps h'') : h.Keeps h'' := by
  refine ⟨?_, hk'.setups.trans hk.setups⟩
  rw [hk'.frame, hk.frame]

theorem Keeps.shared (hk : h.Keeps h') : h'.shared = h.shared := by
  rw [hk.frame]

theorem Keeps.length_engines (hk : h.Keeps h') : h'.engines.length = h.engines.length := by
  simpa [Host.setups] using congrArg List.length hk.setups

/-- Another engine that looks the same in the place of one makes no difference. -/
theorem map_engines_set {α : Type} {f : Engine → α} {n : Nat} {e e' : Engine}
    (hn : h.engines[n]? = some e) (hsame : f e' = f e) :
    (h.engines.set n e').map f = h.engines.map f := by
  obtain ⟨hlt, rfl⟩ := List.getElem?_eq_some_iff.mp hn
  rw [List.map_set, hsame, ← List.getElem_map f (h := by simpa using hlt)]
  exact List.set_getElem_self _

/-! ## Jobs -/

theorem keeps_startJob (h : Host) (number : Nat) : h.Keeps (h.startJob number).result := by
  simp only [startJob]
  split
  · exact Keeps.refl h
  · split
    · exact Keeps.refl h
    · exact ⟨rfl, rfl⟩

theorem startEach_cons_fst (h : Host) (n : Nat) (ns : List Nat) :
    (h.startEach (n :: ns)).1 = ((h.startJob n).result.startEach ns).1 := by
  simp only [startEach]
  split <;> rfl

theorem keeps_startEach (h : Host) (numbers : List Nat) : h.Keeps (h.startEach numbers).1 := by
  induction numbers generalizing h with
  | nil => exact Keeps.refl h
  | cons n ns ih =>
      rw [startEach_cons_fst]
      exact (keeps_startJob h n).trans (ih _)

theorem keeps_advanceJob (h : Host) (number : Nat) : h.Keeps (h.advanceJob number) := by
  simp only [advanceJob]
  split
  · exact Keeps.refl h
  · split
    · exact Keeps.refl h
    · rename_i e he
      exact ⟨rfl, map_engines_set he (Job.sameSetup_endParts _ _ _ _).setup⟩

theorem keeps_closeJob (h : Host) (number : Nat) : h.Keeps (h.closeJob number).1 := by
  simp only [closeJob]
  split
  · exact Keeps.refl h
  · split
    · exact Keeps.refl h
    · split
      · exact Keeps.refl h
      · refine ⟨rfl, ?_⟩
        split
        · apply List.ext_getElem?
          intro n
          simp only [setups, List.getElem?_map, List.getElem?_modify]
          cases h.engines[n]? with
          | none => rfl
          | some e => split <;> rfl
        · rfl

theorem keeps_closeJobs (h : Host) (numbers : List Nat) : h.Keeps (h.closeJobs numbers).1 := by
  induction numbers generalizing h with
  | nil => exact Keeps.refl h
  | cons n ns ih => exact (keeps_closeJob h n).trans (ih _)

theorem keeps_advance (h : Host) (numbers : List Nat) : h.Keeps (numbers.foldl advanceJob h) := by
  induction numbers generalizing h with
  | nil => exact Keeps.refl h
  | cons n ns ih => exact (keeps_advanceJob h n).trans (ih _)

/-- Letting all started jobs go on changes jobs, bags and generations only. -/
theorem keeps_settle (h : Host) : h.Keeps h.settle.1 :=
  (keeps_advance h h.started).trans (keeps_closeJobs _ _)

/-! ## Steps -/

/-- The job that the validation of a field becomes, if it is pending. -/
def fieldJobs : Except Fault Verdict → List Job
  | .ok (.pending p) => [.ofField p]
  | _ => []

/-- The job that the validation of all fields becomes, if it is pending. -/
def formJobs : FormVerdict → List Job
  | .pending verdicts => [.ofForm verdicts]
  | .known _ => []

theorem engineStep_validate (h : Host) (n : Nat) (e : Engine) (field : String)
    (value extra : Value) :
    (h.engineStep n e (.validate field value extra)).1 =
      { h with
        engines := h.engines.set n (e.validate h.shared field value extra).1
        jobs := h.jobs ++ (fieldJobs (e.validate h.shared field value extra).2.result).map
          fun job => { engine := n, job } } := by
  simp only [engineStep]
  split <;> simp_all [fieldJobs, setEngine, addJob]

theorem engineStep_validateAll (h : Host) (n : Nat) (e : Engine) (values : String → Value) :
    (h.engineStep n e (.validateAll values)).1 =
      { h with
        engines := h.engines.set n (e.validateAll h.shared values).1
        jobs := h.jobs ++ (formJobs (e.validateAll h.shared values).2.result).map
          fun job => { engine := n, job } } := by
  simp only [engineStep]
  split <;> simp_all [formJobs, setEngine, addJob]

/-- A step of an engine happens to the engine that the name stands for, if there is one. -/
theorem step_engine_cases (h : Host) (name : String) (s : EngineStep) :
    h.step (.engine name s) = (h, silent (.error .unknownWord)) ∨
      ∃ n e, h.number? name = some n ∧ h.engines[n]? = some e ∧
        h.step (.engine name s) = h.engineStep n e s := by
  cases hnumber : h.number? name with
  | none => exact Or.inl (by simp only [step, hnumber])
  | some n =>
      cases he : h.engines[n]? with
      | none =>
          have hnone : h.engine? name = none := by rw [engine?, hnumber, Option.bind_some, he]
          exact Or.inl (by simp only [step, hnumber, hnone])
      | some e =>
          have hsome : h.engine? name = some e := by rw [engine?, hnumber, Option.bind_some, he]
          exact Or.inr ⟨n, e, rfl, he, by simp only [step, hnumber, hsome]⟩

/-- A step of an engine puts another engine in its place, which has the same validators of its own
unless one is registered, and adds jobs at most. -/
theorem engineStep_engines (h : Host) (n : Nat) {e : Engine} (s : EngineStep)
    (hn : h.engines[n]? = some e) :
    ∃ e', (h.engineStep n e s).1.engines = h.engines.set n e' ∧
      ((∀ name d, s ≠ .extend name d) → e'.overlay = e.overlay) := by
  have hself : h.engines = h.engines.set n e := by
    obtain ⟨hlt, rfl⟩ := List.getElem?_eq_some_iff.mp hn
    exact (List.set_getElem_self hlt).symm
  cases s with
  | validate field value extra =>
      rw [engineStep_validate]
      exact ⟨_, rfl, fun _ => by rw [Engine.sameSetup_validate e h.shared field value extra]⟩
  | validateAll values =>
      rw [engineStep_validateAll]
      exact ⟨_, rfl, fun _ => by rw [Engine.sameSetup_validateAll e h.shared values]⟩
  | attach field text => exact ⟨_, rfl, fun _ => rfl⟩
  | detach field => exact ⟨_, rfl, fun _ => rfl⟩
  | setLocale locale => exact ⟨_, rfl, fun _ => rfl⟩
  | bag s => exact ⟨_, rfl, fun _ => rfl⟩
  | extend name d => exact ⟨_, rfl, fun hne => absurd rfl (hne name d)⟩
  | _ => exact ⟨e, hself, fun _ => rfl⟩

theorem shared_engineStep (h : Host) (n : Nat) (e : Engine) (s : EngineStep) :
    (h.engineStep n e s).1.shared = h.shared := by
  cases s with
  | validate field value extra =>
      simp only [engineStep]
      split <;> rfl
  | validateAll values =>
      simp only [engineStep]
      split <;> rfl
  | _ => rfl

theorem catalog_dictionaryStep (h : Host) (s : DictionaryStep) :
    (h.dictionaryStep s).1.shared.catalog = h.shared.catalog ∧
      (h.dictionaryStep s).1.engines = h.engines := by
  cases s with
  | get locale name field params =>
      simp only [dictionaryStep]
      split <;> exact ⟨rfl, rfl⟩
  | _ => exact ⟨rfl, rfl⟩

/-- Registering an owner makes an engine if the owner has none; everything else of it concerns names
and owners. -/
theorem registerOwner_engines (h : Host) (registry owner newName : String) :
    let made := if ((h.registry registry).owners.get? owner).isSome then h
      else (h.addEngine (Engine.ofRules (h.registry registry).rules (.text englishLocale) [])).1
    (h.registerOwner registry owner newName).1.engines = made.engines ∧
      (h.registerOwner registry owner newName).1.jobs = made.jobs ∧
      (h.registerOwner registry owner newName).1.shared = made.shared := by
  simp only [registerOwner]
  split <;> exact ⟨rfl, rfl, rfl⟩

/-- A step of owners leaves what engines share alone, and adds an engine without validators of its own
at most. -/
theorem ownerStep_engines (h : Host) (registry : String) (s : OwnerStep) :
    (h.ownerStep registry s).1.shared = h.shared ∧
      ((h.ownerStep registry s).1.engines = h.engines ∨
        ∃ rules, (h.ownerStep registry s).1.engines =
          h.engines ++ [Engine.ofRules rules (.text englishLocale) []]) := by
  cases s with
  | register owner newName =>
      obtain ⟨hengines, -, hshared⟩ := h.registerOwner_engines registry owner newName
      by_cases hknown : ((h.registry registry).owners.get? owner).isSome = true
      · rw [if_pos hknown] at hengines hshared
        exact ⟨hshared, Or.inl hengines⟩
      · rw [if_neg hknown] at hengines hshared
        exact ⟨hshared, Or.inr ⟨_, hengines⟩⟩
  | _ => exact ⟨rfl, Or.inl rfl⟩

end Host

end FieldRules
