import FieldRules.Proofs.Host.Frame
import FieldRules.Proofs.Table

/-!
# Owners on a host

Registering an owner sees to an engine first and to a name for it then (`registerOwner_eq`). Most steps
leave names, registries and the number of engines alone (`sameOwners_step`). Every owner stands once in
its registry and has an engine of the host, whatever is done (`Registered.step`).
-/

namespace FieldRules

namespace Host

variable {h h' : Host}

/-! ## Registration -/

/-- The engine of an owner, which is the one that would be made if there is none. -/
def engineOfOwner (h : Host) (registry owner : String) : Nat :=
  ((h.registry registry).owners.get? owner).getD h.engines.length

/-- The host with an engine for an owner, which may have no name yet. -/
def withOwner (h : Host) (registry owner : String) : Host :=
  match (h.registry registry).owners.get? owner with
  | some _ => h.setOwners registry (h.registry registry).owners
  | none =>
    (h.addEngine (Engine.ofRules (h.registry registry).rules (.text englishLocale) [])).1.setOwners
      registry ⟨Table.put (h.registry registry).owners.engines owner h.engines.length⟩

theorem names_withOwner (h : Host) (registry owner : String) :
    (h.withOwner registry owner).names = h.names := by
  unfold withOwner
  split <;> rfl

/-- Registering an owner sees to an engine, and then to its name. -/
theorem registerOwner_eq (h : Host) (registry owner newName : String) :
    let number := h.engineOfOwner registry owner
    let made := h.withOwner registry owner
    h.registerOwner registry owner newName =
      (if (h.nameOf? number).isSome then made else made.giveName newName number,
        (h.nameOf? number).getD newName,
        (made.engines[number]?).getD
          (Engine.ofRules (h.registry registry).rules (.text englishLocale) [])) := by
  have hnames : ∀ n, (h.withOwner registry owner).nameOf? n = h.nameOf? n := by
    intro n
    rw [nameOf?, nameOf?, names_withOwner]
  cases howner : (h.registry registry).owners.get? owner with
  | some n =>
      have hnumber : h.engineOfOwner registry owner = n := by simp [engineOfOwner, howner]
      have hmade : h.withOwner registry owner = h.setOwners registry (h.registry registry).owners := by
        simp only [withOwner, howner]
      have hname := hnames n
      rw [hmade] at hname
      simp only [registerOwner, Owners.register, howner, hnumber, hmade, Option.isSome_some, if_true,
        hname]
      cases h.nameOf? n <;> rfl
  | none =>
      have hnumber : h.engineOfOwner registry owner = h.engines.length := by
        simp [engineOfOwner, howner]
      have hmade : h.withOwner registry owner =
          (h.addEngine (Engine.ofRules (h.registry registry).rules (.text englishLocale) [])).1.setOwners
            registry ⟨Table.put (h.registry registry).owners.engines owner h.engines.length⟩ := by
        simp only [withOwner, howner]
      have hname := hnames h.engines.length
      rw [hmade] at hname
      simp only [registerOwner, Owners.register, howner, hnumber, hmade, Option.isSome_none,
        Bool.false_eq_true, if_false, hname]
      cases h.nameOf? h.engines.length <;> rfl

/-! ## Owners of a whole host -/

/-- Owners stand once in their registry and have engines of the host. -/
structure Registered (h : Host) : Prop where
  once : ∀ r ∈ h.registries, (Table.keys r.owners.engines).Nodup
  made : ∀ r ∈ h.registries, ∀ e ∈ r.owners.engines, e.2 < h.engines.length

theorem registered_fresh (yaml : YamlReader) : (fresh yaml).Registered :=
  ⟨by simp [fresh, Table.keys], by simp [fresh]⟩

theorem Registered.registry (hreg : h.Registered) (name : String) :
    (Table.keys (h.registry name).owners.engines).Nodup ∧
      ∀ e ∈ (h.registry name).owners.engines, e.2 < h.engines.length := by
  rw [Host.registry]
  cases hr : h.registries[h.registryNumber name]? with
  | none => exact ⟨List.nodup_nil, by simp⟩
  | some r =>
      have hmem := List.mem_of_getElem? hr
      exact ⟨hreg.once r hmem, hreg.made r hmem⟩

/-- The engine of an owner is there, if the owner has one. -/
theorem Registered.lt_of_owner (hreg : h.Registered) {registry owner : String} {n : Nat}
    (howner : (h.registry registry).owners.get? owner = some n) : n < h.engines.length :=
  (hreg.registry registry).2 (owner, n) (Table.mem_of_get?_eq_some howner)

theorem Registered.grow (hreg : h.Registered) (hregistries : h'.registries = h.registries)
    (hlength : h.engines.length ≤ h'.engines.length) : h'.Registered where
  once := by
    rw [hregistries]
    exact hreg.once
  made := by
    rw [hregistries]
    intro r hr e he
    exact Nat.lt_of_lt_of_le (hreg.made r hr e he) hlength

theorem Registered.setOwners (hreg : h.Registered) {registry : String} {owners : Owners}
    (honce : (Table.keys owners.engines).Nodup)
    (hmade : ∀ e ∈ owners.engines, e.2 < h.engines.length) :
    (h.setOwners registry owners).Registered := by
  -- A registry has other owners now, or is one that was there.
  have hplace : ∀ r ∈ (h.setOwners registry owners).registries, r.owners = owners ∨
      r ∈ h.registries := by
    intro r hr
    obtain ⟨i, hi⟩ := List.mem_iff_getElem?.mp hr
    rw [Host.setOwners, List.getElem?_modify] at hi
    cases hget : h.registries[i]? with
    | none => simp [hget] at hi
    | some old =>
        rw [hget, Option.map_eq_map, Option.map_some, Option.some.injEq] at hi
        split at hi
        · exact Or.inl (by rw [← hi])
        · exact Or.inr (hi ▸ List.mem_of_getElem? hget)
  constructor
  · intro r hr
    rcases hplace r hr with howners | hold
    · rw [howners]
      exact honce
    · exact hreg.once r hold
  · intro r hr
    rcases hplace r hr with howners | hold
    · rw [howners]
      exact hmade
    · exact hreg.made r hold

theorem Registered.withOwner (hreg : h.Registered) (registry owner : String) :
    (h.withOwner registry owner).Registered := by
  obtain ⟨honce, hmade⟩ := hreg.registry registry
  unfold Host.withOwner
  split
  · exact hreg.setOwners honce hmade
  · let blank := Engine.ofRules (h.registry registry).rules (.text englishLocale) []
    have hlength : (h.addEngine blank).1.engines.length = h.engines.length + 1 := by simp [addEngine]
    have hadded : (h.addEngine blank).1.Registered := hreg.grow rfl (by omega)
    refine hadded.setOwners (Table.nodup_keys_put honce owner _) ?_
    intro e he
    rw [hlength]
    rcases Table.mem_of_mem_put he with hold | rfl
    · exact Nat.lt_succ_of_lt (hmade e hold)
    · exact Nat.lt_succ_self _

theorem Registered.ownerStep (hreg : h.Registered) (registry : String) (s : OwnerStep) :
    (h.ownerStep registry s).1.Registered := by
  obtain ⟨honce, hmade⟩ := hreg.registry registry
  cases s with
  | create rules =>
      constructor
      · intro r hr
        rcases List.mem_append.mp hr with hold | hnew
        · exact hreg.once r hold
        · obtain rfl := List.mem_singleton.mp hnew
          exact List.nodup_nil
      · intro r hr e he
        rcases List.mem_append.mp hr with hold | hnew
        · exact hreg.made r hold e he
        · obtain rfl := List.mem_singleton.mp hnew
          simp at he
  | register owner newName =>
      have hmade' := hreg.withOwner registry owner
      simp only [Host.ownerStep, registerOwner_eq]
      split
      · exact hmade'
      · exact hmade'.grow rfl (Nat.le_refl _)
  | unregister owner =>
      refine hreg.setOwners (Table.nodup_keys_remove honce owner) ?_
      intro e he
      exact hmade e (List.mem_of_mem_filter he)
  | clear => exact hreg.setOwners List.nodup_nil (by simp)
  | _ => exact hreg

/-! ## Steps that do not concern owners -/

/-- Names, registries and the number of engines are the same. -/
structure SameOwners (h h' : Host) : Prop where
  names : h'.names = h.names
  registries : h'.registries = h.registries
  registryNames : h'.registryNames = h.registryNames
  length : h'.engines.length = h.engines.length

theorem Keeps.sameOwners (hk : h.Keeps h') : h.SameOwners h' := by
  have hlength := hk.length_engines
  rw [hk.frame] at hlength ⊢
  exact ⟨rfl, rfl, rfl, hlength⟩

theorem sameOwners_engineStep (h : Host) {n : Nat} {e : Engine} (hn : h.engines[n]? = some e)
    (s : EngineStep) : h.SameOwners (h.engineStep n e s).1 := by
  obtain ⟨e', hengines, -⟩ := h.engineStep_engines n s hn
  have hlength : (h.engineStep n e s).1.engines.length = h.engines.length := by
    rw [hengines, List.length_set]
  cases s with
  | validate field value extra =>
      rw [engineStep_validate] at hlength ⊢
      exact ⟨rfl, rfl, rfl, hlength⟩
  | validateAll values =>
      rw [engineStep_validateAll] at hlength ⊢
      exact ⟨rfl, rfl, rfl, hlength⟩
  | _ => exact ⟨rfl, rfl, rfl, hlength⟩

/-- Nothing but making engines and steps of registries concern owners. -/
theorem sameOwners_step (h : Host) {s : Step} (hcreate : ∀ name e, s ≠ .create name e)
    (howners : ∀ registry o, s ≠ .owners registry o) : h.SameOwners (h.step s).1 := by
  cases s with
  | create name e => exact absurd rfl (hcreate name e)
  | engine name s =>
      rcases h.step_engine_cases name s with hstep | ⟨n, e, -, hn, hstep⟩
      · rw [hstep]
        exact ⟨rfl, rfl, rfl, rfl⟩
      · rw [hstep]
        exact h.sameOwners_engineStep hn s
  | catalog s => cases s <;> exact ⟨rfl, rfl, rfl, rfl⟩
  | dictionary s =>
      cases s with
      | get locale name field params =>
          simp only [step, dictionaryStep]
          split <;> exact ⟨rfl, rfl, rfl, rfl⟩
      | _ => exact ⟨rfl, rfl, rfl, rfl⟩
  | owners registry s => exact absurd rfl (howners registry s)
  | start jobs => exact ((keeps_startEach h jobs).trans (keeps_settle _)).sameOwners
  | release gate passed =>
      have hsettled := (keeps_settle (h.openGate gate passed)).sameOwners
      exact ⟨hsettled.names, hsettled.registries, hsettled.registryNames, hsettled.length⟩
  | setProbe probe => exact ⟨rfl, rfl, rfl, rfl⟩

/-! ## Sessions -/

/-- Owners stand once and have their engines, whatever a step does. -/
theorem Registered.step (hreg : h.Registered) (s : Step) : (h.step s).1.Registered := by
  have hother : h.SameOwners (h.step s).1 → (h.step s).1.Registered := by
    intro hsame
    exact hreg.grow hsame.registries (Nat.le_of_eq hsame.length.symm)
  cases s with
  | create name e => exact hreg.grow rfl (by simp [Host.step, addEngine, giveName])
  | owners registry s => exact hreg.ownerStep registry s
  | _ => exact hother (h.sameOwners_step (by simp) (by simp))

end Host

end FieldRules
