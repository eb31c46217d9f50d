import FieldRules.Proofs.Host.Log
import FieldRules.Proofs.Host.Owners
import Mathlib.Data.List.DropRight

/-!
# Owners over whole sessions

An owner that is registered has an engine until it is taken out of its registry, or everyone is. This is
its tenure, and the engine is the one that was made when the owner was first registered in it
(`held?_log`). Every engine that is made is a new one. So no two owners share an engine, and an engine
whose owner was taken out stays without one for good (`one_engine_each`).
-/

namespace FieldRules

/-! ## Tenures in the log -/

namespace Happening

/-- The step registers an owner in the registry with a number. -/
def registers (r : Nat) (owner : String) (x : Happening) : Bool :=
  match x.step with
  | .owners name (.register o _) => x.before.registryNumber name == r && o == owner
  | _ => false

/-- The step takes an owner out of the registry with a number, alone or with everyone. -/
def dismisses (r : Nat) (owner : String) (x : Happening) : Bool :=
  match x.step with
  | .owners name (.unregister o) => x.before.registryNumber name == r && o == owner
  | .owners name .clear => x.before.registryNumber name == r
  | _ => false

/-- A step registers one owner at most. -/
theorem registers_inj {x : Happening} {r r' : Nat} {owner owner' : String}
    (h : x.registers r owner = true) (h' : x.registers r' owner' = true) : r = r' ∧ owner = owner' := by
  unfold registers at h h'
  split at h
  · rename_i hstep
    simp only [hstep, Bool.and_eq_true, beq_iff_eq] at h h'
    exact ⟨h.1.symm.trans h'.1, h.2.symm.trans h'.2⟩
  · simp at h

end Happening

/-- What happened since an owner was last taken out of a registry. -/
def tenure (r : Nat) (owner : String) (log : List Happening) : List Happening :=
  log.rtakeWhile fun x => !x.dismisses r owner

/-- The number of the engine that was made when an owner was first registered in its tenure. -/
def engineFor? (r : Nat) (owner : String) (log : List Happening) : Option Nat :=
  ((tenure r owner log).find? (·.registers r owner)).map (·.before.engines.length)

theorem engineFor?_concat (r : Nat) (owner : String) (log : List Happening) (x : Happening) :
    engineFor? r owner (log ++ [x]) =
      if x.dismisses r owner then none
      else (engineFor? r owner log).or
        (if x.registers r owner then some x.before.engines.length else none) := by
  unfold engineFor? tenure
  rw [List.rtakeWhile_concat]
  cases hdismissed : x.dismisses r owner with
  | true => rfl
  | false =>
      simp only [Bool.not_false, if_true, Bool.false_eq_true, if_false, List.find?_append]
      cases (List.rtakeWhile (fun x => !x.dismisses r owner) log).find? (·.registers r owner) with
      | some y => rfl
      | none => cases hregistered : x.registers r owner <;> simp [hregistered]

/-! ## Who holds an engine -/

namespace Host

variable {h h' : Host} {r : Nat} {owner : String} {n : Nat}

/-- The engine of an owner in the registry with a number. -/
def held? (h : Host) (r : Nat) (owner : String) : Option Nat :=
  (h.registries[r]?).bind fun registry => registry.owners.get? owner

theorem get?_registry (h : Host) (name owner : String) :
    (h.registry name).owners.get? owner = h.held? (h.registryNumber name) owner := by
  unfold registry held?
  cases h.registries[h.registryNumber name]? <;> rfl

/-- Registries and engines are told by their names. -/
structure Placed (h : Host) : Prop where
  once : (Table.keys h.names).Nodup
  first : 0 < h.registries.length
  there : ∀ e ∈ h.registryNames, e.2 < h.registries.length

theorem placed_fresh (yaml : YamlReader) : (fresh yaml).Placed :=
  ⟨List.nodup_nil, by simp [fresh], by simp [fresh]⟩

theorem Placed.registryNumber_lt (hplaced : h.Placed) (name : String) :
    h.registryNumber name < h.registries.length := by
  unfold registryNumber
  cases hname : Table.get? h.registryNames name with
  | none => exact hplaced.first
  | some r => exact hplaced.there _ (Table.mem_of_get?_eq_some hname)

/-- A name of an engine stands for it. -/
theorem Placed.number?_of_nameOf? (hplaced : h.Placed) {name : String} (hname : h.nameOf? n = some name) :
    h.number? name = some n := by
  obtain ⟨e, he, rfl⟩ := Option.map_eq_some_iff.mp hname
  have hnumber := List.find?_some he
  rw [beq_iff_eq] at hnumber
  rw [number?, ← hnumber]
  exact Table.get?_eq_some_of_mem hplaced.once (List.mem_of_find?_eq_some he)

/-! ## What a step does to owners -/

theorem held?_setOwners (hplaced : h.Placed) (name : String) (owners : Owners) (r : Nat)
    (owner : String) :
    (h.setOwners name owners).held? r owner =
      if h.registryNumber name = r then owners.get? owner else h.held? r owner := by
  unfold held? setOwners
  rw [List.getElem?_modify]
  by_cases hr : h.registryNumber name = r
  · subst hr
    rw [List.getElem?_eq_getElem (hplaced.registryNumber_lt name)]
    simp
  · rw [if_neg hr]
    cases h.registries[r]? <;> simp [hr]

theorem held?_withOwner (hplaced : h.Placed) (name owner' : String) (r : Nat) (owner : String) :
    (h.withOwner name owner').held? r owner =
      (h.held? r owner).or
        (if h.registryNumber name = r ∧ owner' = owner then some h.engines.length else none) := by
  unfold withOwner
  split
  · rename_i n hold
    -- The owner had an engine, which it keeps.
    rw [get?_registry] at hold
    rw [held?_setOwners hplaced, get?_registry]
    by_cases hr : h.registryNumber name = r
    · subst hr
      by_cases ho : owner' = owner
      · subst ho
        simp [hold]
      · simp [ho]
    · simp [hr]
  · rename_i hnew
    rw [get?_registry] at hnew
    let blank := Engine.ofRules (h.registry name).rules (.text englishLocale) []
    have hadded : (h.addEngine blank).1.Placed := ⟨hplaced.once, hplaced.first, hplaced.there⟩
    have hput := held?_setOwners hadded name
      ⟨Table.put (h.registry name).owners.engines owner' h.engines.length⟩ r owner
    refine hput.trans ?_
    have hnumber : (h.addEngine blank).1.registryNumber name = h.registryNumber name := rfl
    rw [hnumber]
    by_cases hr : h.registryNumber name = r
    · subst hr
      rw [if_pos rfl, Owners.get?, Table.get?_put]
      by_cases ho : owner' = owner
      · subst ho
        simp [hnew]
      · rw [if_neg ho, if_neg (fun hboth => ho hboth.2), Option.or_none, ← get?_registry]
        rfl
    · rw [if_neg hr, if_neg (fun hboth => hr hboth.1), Option.or_none]
      rfl

theorem held?_of_registries (hsame : h'.registries = h.registries) :
    h'.held? r owner = h.held? r owner := by
  rw [held?, held?, hsame]

/-- Who holds which engine after a step: who is taken out holds none, and who is registered holds the
engine that was held before or else the one that is made next. -/
theorem held?_step (hplaced : h.Placed) (s : Step) (r : Nat) (owner : String) :
    (h.step s).1.held? r owner =
      if (Happening.of h s).dismisses r owner then none
      else (h.held? r owner).or
        (if (Happening.of h s).registers r owner then some h.engines.length else none) := by
  -- Most steps neither take out nor register anyone, and leave the registries as they are.
  have hother : (h.step s).1.registries = h.registries →
      (h.step s).1.held? r owner = (h.held? r owner).or none := by
    intro hsame
    rw [held?_of_registries hsame, Option.or_none]
  cases s with
  | create name e => exact hother rfl
  | owners name o =>
      cases o with
      | create rules =>
          let added : Registry := { rules := rules }
          refine Eq.trans ?_ (Option.or_none).symm
          show ((h.registries ++ [added])[r]?).bind _ = (h.registries[r]?).bind _
          rcases Nat.lt_trichotomy r h.registries.length with hlt | rfl | hgt
          · rw [List.getElem?_append_left hlt]
          · simp [added, Owners.get?]
          · have hlen : (h.registries ++ [added]).length ≤ r := by
              rw [List.length_append, List.length_singleton]
              omega
            rw [List.getElem?_eq_none hlen, List.getElem?_eq_none (Nat.le_of_lt hgt)]
      | register owner' newName =>
          have hheld : (h.step (.owners name (.register owner' newName))).1.held? r owner =
              (h.withOwner name owner').held? r owner := by
            apply held?_of_registries
            simp only [step, ownerStep, registerOwner_eq]
            split <;> rfl
          rw [hheld, held?_withOwner hplaced]
          simp [Happening.dismisses, Happening.registers, Happening.of]
      | unregister owner' =>
          refine (held?_setOwners hplaced name _ r owner).trans ?_
          rw [Owners.unregister, Owners.get?, Table.get?_remove]
          simp only [Happening.dismisses, Happening.registers, Happening.of]
          by_cases hr : h.registryNumber name = r
          · subst hr
            by_cases ho : owner' = owner
            · simp [ho]
            · rw [if_pos rfl, if_neg ho, ← get?_registry]
              simp [ho, Owners.get?]
          · simp [hr]
      | clear =>
          refine (held?_setOwners hplaced name {} r owner).trans ?_
          simp only [Happening.dismisses, Happening.registers, Happening.of]
          by_cases hr : h.registryNumber name = r
          · simp [hr, Owners.get?]
          · simp [hr]
      | get owner' => exact hother rfl
      | has owner' => exact hother rfl
      | size => exact hother rfl
  | _ => exact hother (h.sameOwners_step (by simp) (by simp)).registries

/-! ## Names and registries -/

theorem Placed.setOwners (hplaced : h.Placed) (name : String) (owners : Owners) :
    (h.setOwners name owners).Placed := by
  have hlength : (h.setOwners name owners).registries.length = h.registries.length := by
    simp [Host.setOwners]
  constructor
  · exact hplaced.once
  · rw [hlength]
    exact hplaced.first
  · rw [hlength]
    exact hplaced.there

theorem Placed.withOwner (hplaced : h.Placed) (name owner : String) :
    (h.withOwner name owner).Placed := by
  unfold Host.withOwner
  split
  · exact hplaced.setOwners name _
  · let blank := Engine.ofRules (h.registry name).rules (.text englishLocale) []
    have hadded : (h.addEngine blank).1.Placed := ⟨hplaced.once, hplaced.first, hplaced.there⟩
    exact hadded.setOwners name _

/-- Registries and engines are told by their names, whatever a step does. -/
theorem Placed.step (hplaced : h.Placed) (s : Step) : (h.step s).1.Placed := by
  -- Most steps leave all of this as it is.
  have hother : h.SameOwners (h.step s).1 → (h.step s).1.Placed := by
    intro hsame
    constructor
    · rw [hsame.names]
      exact hplaced.once
    · rw [hsame.registries]
      exact hplaced.first
    · rw [hsame.registryNames, hsame.registries]
      exact hplaced.there
  cases s with
  | create name e => exact ⟨Table.nodup_keys_put hplaced.once name _, hplaced.first, hplaced.there⟩
  | owners name o =>
      cases o with
      | create rules =>
          have hlength : (h.step (.owners name (.create rules))).1.registries.length =
              h.registries.length + 1 := by
            simp [Host.step, ownerStep, addRegistry]
          refine ⟨hplaced.once, by omega, ?_⟩
          rw [hlength]
          intro e he
          rcases Table.mem_of_mem_put he with hold | rfl
          · exact Nat.lt_succ_of_lt (hplaced.there e hold)
          · exact Nat.lt_succ_self _
      | register owner newName =>
          have hmade := hplaced.withOwner name owner
          simp only [Host.step, ownerStep, registerOwner_eq]
          split
          · exact hmade
          · exact ⟨Table.nodup_keys_put hmade.once newName _, hmade.first, hmade.there⟩
      | unregister owner => exact hplaced.setOwners name _
      | clear => exact hplaced.setOwners name _
      | get owner => exact hplaced
      | has owner => exact hplaced
      | size => exact hplaced
  | _ => exact hother (h.sameOwners_step (by simp) (by simp))

/-! ## Engines come and stay -/

/-- Registering an owner that has no engine makes a new one, and else none. -/
theorem engines_register (h : Host) (name owner newName : String) :
    (h.step (.owners name (.register owner newName))).1.engines =
      if (h.held? (h.registryNumber name) owner).isSome then h.engines
      else h.engines ++ [Engine.ofRules (h.registry name).rules (.text englishLocale) []] := by
  have hengines := (h.registerOwner_engines name owner newName).1
  rw [get?_registry] at hengines
  refine hengines.trans ?_
  split <;> rfl

theorem le_length_engines_step (h : Host) (s : Step) :
    h.engines.length ≤ (h.step s).1.engines.length := by
  cases s with
  | create name e => simp [step, addEngine, giveName]
  | owners name o =>
      rcases (h.ownerStep_engines name o).2 with hsame | ⟨rules, hadded⟩
      · exact Nat.le_of_eq (congrArg List.length hsame).symm
      · have hlength := congrArg List.length hadded
        rw [List.length_append, List.length_singleton] at hlength
        show h.engines.length ≤ (h.ownerStep name o).1.engines.length
        omega
  | _ => exact Nat.le_of_eq (h.sameOwners_step (by simp) (by simp)).length.symm

/-- Names, registries and owners are in order, and no two owners share an engine. -/
structure Orderly (h : Host) : Prop where
  placed : h.Placed
  registered : h.Registered
  apart : ∀ r owner r' owner' n, h.held? r owner = some n → h.held? r' owner' = some n →
    r = r' ∧ owner = owner'

theorem Registered.lt_of_held? (hreg : h.Registered) (hheld : h.held? r owner = some n) :
    n < h.engines.length := by
  obtain ⟨registry, hregistry, howner⟩ := Option.bind_eq_some_iff.mp hheld
  exact hreg.made registry (List.mem_of_getElem? hregistry) (owner, n) (Table.mem_of_get?_eq_some howner)

/-- An engine that is held after a step was held before, or has just been made. -/
theorem of_held?_step (hplaced : h.Placed) {s : Step} (hheld : (h.step s).1.held? r owner = some n) :
    (Happening.of h s).dismisses r owner = false ∧
      (h.held? r owner = some n ∨
        h.held? r owner = none ∧ (Happening.of h s).registers r owner = true ∧ n = h.engines.length) := by
  rw [held?_step hplaced] at hheld
  split at hheld
  · simp at hheld
  · rename_i hstays
    refine ⟨by simpa using hstays, ?_⟩
    rcases Option.or_eq_some_iff.mp hheld with hold | ⟨hnone, hnew⟩
    · exact Or.inl hold
    · split at hnew
      · rename_i hregisters
        exact Or.inr ⟨hnone, hregisters, (Option.some.inj hnew).symm⟩
      · simp at hnew

theorem orderly_fresh (yaml : YamlReader) : (fresh yaml).Orderly where
  placed := placed_fresh yaml
  registered := registered_fresh yaml
  apart := by
    intro r owner r' owner' n hheld
    have hlt := (registered_fresh yaml).lt_of_held? hheld
    simp [fresh] at hlt

/-- No two owners come to share an engine. -/
theorem Orderly.step (hord : h.Orderly) (s : Step) : (h.step s).1.Orderly where
  placed := hord.placed.step s
  registered := hord.registered.step s
  apart := by
    intro r owner r' owner' n hheld hheld'
    rcases (of_held?_step hord.placed hheld).2 with hold | ⟨-, hregisters, hnew⟩
    · rcases (of_held?_step hord.placed hheld').2 with hold' | ⟨-, -, hnew'⟩
      · exact hord.apart r owner r' owner' n hold hold'
      · -- The engine was there before, so it is not the one that was made.
        have hlt := hord.registered.lt_of_held? hold
        omega
    · rcases (of_held?_step hord.placed hheld').2 with hold' | ⟨-, hregisters', -⟩
      · have hlt := hord.registered.lt_of_held? hold'
        omega
      · exact Happening.registers_inj hregisters hregisters'

theorem Orderly.run (hord : h.Orderly) (steps : List Step) : (h.run steps).1.Orderly := by
  induction steps generalizing h with
  | nil => exact hord
  | cons s steps ih => exact ih (hord.step s)

/-- The log of a session tells which engine an owner holds. -/
theorem held?_log (yaml : YamlReader) (steps : List Step) (r : Nat) (owner : String) :
    ((fresh yaml).run steps).1.held? r owner = engineFor? r owner ((fresh yaml).log steps) := by
  induction steps using List.reverseRecOn with
  | nil =>
      show (fresh yaml).held? r owner = none
      cases hheld : (fresh yaml).held? r owner with
      | none => rfl
      | some n => exact absurd ((registered_fresh yaml).lt_of_held? hheld) (Nat.not_lt_zero n)
  | append_singleton steps s ih =>
      have hplaced := ((orderly_fresh yaml).run steps).placed
      rw [run_concat, log_concat, engineFor?_concat, held?_step hplaced, ih]
      rfl

/-! ## Answers -/

theorem has_owners (o : Owners) (owner : String) : o.has owner = (o.get? owner).isSome := by
  rw [Bool.eq_iff_iff, Owners.has, Owners.get?, Table.has_iff, Table.get?_isSome_iff]

/-- Registering an owner answers with its engine, by a name that stands for it. -/
theorem Orderly.answer_register (hord : h.Orderly) (name owner newName : String) :
    let after := (h.step (.owners name (.register owner newName))).1
    ∃ label e, after.number? label = some (h.engineOfOwner name owner) ∧
      after.engines[h.engineOfOwner name owner]? = some e ∧
      (h.step (.owners name (.register owner newName))).2.result = .ok (.owned label e.fieldNames) := by
  have hheld : (h.withOwner name owner).held? (h.registryNumber name) owner =
      some (h.engineOfOwner name owner) := by
    rw [held?_withOwner hord.placed, if_pos ⟨rfl, rfl⟩, engineOfOwner, get?_registry]
    cases h.held? (h.registryNumber name) owner <;> rfl
  have hthere := (hord.registered.withOwner name owner).lt_of_held? hheld
  obtain ⟨e, he⟩ : ∃ e, (h.withOwner name owner).engines[h.engineOfOwner name owner]? = some e :=
    ⟨_, List.getElem?_eq_getElem hthere⟩
  refine ⟨(h.nameOf? (h.engineOfOwner name owner)).getD newName, e, ?_, ?_, ?_⟩
  · simp only [Host.step, ownerStep, registerOwner_eq]
    cases hname : h.nameOf? (h.engineOfOwner name owner) with
    | some label =>
        have hnames : (h.withOwner name owner).names = h.names := h.names_withOwner name owner
        have hnumber := hord.placed.number?_of_nameOf? hname
        simpa [number?, hnames] using hnumber
    | none => simp [number?, giveName]
  · simp only [Host.step, ownerStep, registerOwner_eq]
    split <;> exact he
  · simp only [Host.step, ownerStep, registerOwner_eq, he]
    rfl

/-! ## Engines that were given back -/

/-- The engine was made, and nobody holds it. -/
structure Retired (h : Host) (n : Nat) : Prop where
  made : n < h.engines.length
  free : ∀ r owner, h.held? r owner ≠ some n

/-- An engine that nobody holds stays so, for what is made is always a new one. -/
theorem Retired.step (hret : h.Retired n) (hplaced : h.Placed) (s : Step) : (h.step s).1.Retired n where
  made := Nat.lt_of_lt_of_le hret.made (h.le_length_engines_step s)
  free := by
    intro r owner hheld
    rcases (of_held?_step hplaced hheld).2 with hold | ⟨-, -, hnew⟩
    · exact hret.free r owner hold
    · have hlt := hret.made
      omega

theorem Retired.run (hret : h.Retired n) (hord : h.Orderly) (steps : List Step) :
    (h.run steps).1.Retired n := by
  induction steps generalizing h with
  | nil => exact hret
  | cons s steps ih => exact ih (hret.step hord.placed s) (hord.step s)

/-- The engine of an owner that is taken out is given back. -/
theorem Orderly.retired_of_dismisses (hord : h.Orderly) {s : Step}
    (hdismisses : (Happening.of h s).dismisses r owner = true) (hheld : h.held? r owner = some n) :
    (h.step s).1.Retired n where
  made := Nat.lt_of_lt_of_le (hord.registered.lt_of_held? hheld) (h.le_length_engines_step s)
  free := by
    intro r' owner' hheld'
    obtain ⟨hstays, hold | ⟨-, -, hnew⟩⟩ := of_held?_step hord.placed hheld'
    · obtain ⟨rfl, rfl⟩ := hord.apart r owner r' owner' n hheld hold
      rw [hdismisses] at hstays
      simp at hstays
    · have hlt := hord.registered.lt_of_held? hheld
      omega

/-! ## Sessions -/

/-- What registries answer about owners, read off what happened. -/
structure OneEngineEach (h : Host) (log : List Happening) : Prop where
  /-- Registering an owner answers with the engine that was made when it was first registered since it was
  last taken out, be it now. -/
  register : ∀ name owner newName,
    let s := Step.owners name (.register owner newName)
    ∃ n label e, engineFor? (h.registryNumber name) owner (log ++ [.of h s]) = some n ∧
      (h.step s).1.number? label = some n ∧ (h.step s).1.engines[n]? = some e ∧
      (h.step s).2.result = .ok (.owned label e.fieldNames)
  /-- An engine is made if the owner has none, and it is another one than all that were made before. -/
  made : ∀ name owner newName,
    (h.step (.owners name (.register owner newName))).1.engines =
      if (engineFor? (h.registryNumber name) owner log).isSome then h.engines
      else h.engines ++ [Engine.ofRules (h.registry name).rules (.text englishLocale) []]
  /-- The engine of an owner is that one, or none if there is none. -/
  engine : ∀ name owner, (h.registry name).owners.get? owner =
    engineFor? (h.registryNumber name) owner log
  /-- The engine of an owner is told by a name that stands for it. -/
  get : ∀ name owner, (h.step (.owners name (.get owner))).2.result =
    .ok (.owner ((engineFor? (h.registryNumber name) owner log).bind h.nameOf?))
  named : ∀ n label, h.nameOf? n = some label → h.number? label = some n
  /-- An owner is registered if it has an engine. -/
  has : ∀ name owner, (h.step (.owners name (.has owner))).2.result =
    .ok (.truth (engineFor? (h.registryNumber name) owner log).isSome)
  /-- Taking an owner out tells whether it had an engine. -/
  unregister : ∀ name owner, (h.step (.owners name (.unregister owner))).2.result =
    .ok (.truth (engineFor? (h.registryNumber name) owner log).isSome)
  /-- The size of a registry is the number of owners that have an engine there. -/
  size : ∀ name, ∃ owners : List String, owners.Nodup ∧
    (∀ owner, owner ∈ owners ↔ (engineFor? (h.registryNumber name) owner log).isSome = true) ∧
    (h.step (.owners name .size)).2.result = .ok (.number owners.length)
  /-- No two owners have the same engine. -/
  apart : ∀ r owner r' owner' n, engineFor? r owner log = some n → engineFor? r' owner' log = some n →
    r = r' ∧ owner = owner'
  /-- The engine of an owner that was taken out is never again that of an owner. -/
  retired : ∀ x ∈ log, ∀ r owner n, x.dismisses r owner = true → x.before.held? r owner = some n →
    ∀ r' owner', engineFor? r' owner' log ≠ some n

/-- In every session an owner has one engine while it is registered, and no other owner ever has it. -/
theorem one_engine_each (yaml : YamlReader) (steps : List Step) :
    OneEngineEach ((fresh yaml).run steps).1 ((fresh yaml).log steps) := by
  have hord : ((fresh yaml).run steps).1.Orderly := (orderly_fresh yaml).run steps
  have hengine : ∀ name owner, (((fresh yaml).run steps).1.registry name).owners.get? owner =
      engineFor? (((fresh yaml).run steps).1.registryNumber name) owner ((fresh yaml).log steps) := by
    intro name owner
    rw [get?_registry, held?_log]
  constructor
  case register =>
    intro name owner newName
    obtain ⟨label, e, hlabel, he, hanswer⟩ := hord.answer_register name owner newName
    refine ⟨_, label, e, ?_, hlabel, he, hanswer⟩
    -- The engine is the one that the owner had, or else the next one.
    rw [engineFor?_concat, engineOfOwner, hengine]
    simp only [Happening.dismisses, Happening.registers, Happening.of]
    cases engineFor? (((fresh yaml).run steps).1.registryNumber name) owner ((fresh yaml).log steps) <;> simp
  case made =>
    intro name owner newName
    rw [engines_register, held?_log]
  case engine => exact hengine
  case get =>
    intro name owner
    rw [← hengine]
    rfl
  case named =>
    intro n label hlabel
    exact hord.placed.number?_of_nameOf? hlabel
  case has =>
    intro name owner
    rw [← hengine, ← has_owners]
    rfl
  case unregister =>
    intro name owner
    rw [← hengine, ← has_owners]
    rfl
  case size =>
    intro name
    refine ⟨Table.keys (((fresh yaml).run steps).1.registry name).owners.engines,
      (hord.registered.registry name).1, ?_, ?_⟩
    · intro owner
      rw [← hengine, Owners.get?, Table.get?_isSome_iff]
    · rw [Table.keys, List.length_map]
      rfl
  case apart =>
    intro r owner r' owner' n hn hn'
    rw [← held?_log] at hn hn'
    exact hord.apart r owner r' owner' n hn hn'
  case retired =>
    intro x hx r owner n hdismisses hheld r' owner'
    obtain ⟨before, s, later, rfl, rfl⟩ := exists_of_mem_log hx
    have hbefore : ((fresh yaml).run before).1.Orderly := (orderly_fresh yaml).run before
    have hretired := hbefore.retired_of_dismisses hdismisses hheld
    rw [← held?_log, run_append]
    exact (hretired.run (hbefore.step s) later).free r' owner'

end Host

end FieldRules
