import FieldRules.Proofs.Host.AtRest
import FieldRules.Proofs.Host.Owners

/-!
# Steps without an engine

A step of an engine leaves no trace in the rest of the host (`without_step_self`), and every other step
does to the rest what it does with the engine there, and answers the same but for the numbers of jobs
(`step_without`). Names are how a host finds its engines, so no name may pass between the engine and
another one (`NamesStay`).
-/

namespace FieldRules

variable {a : Nat}

/-! ## What is left out and what is left -/

/-- A step of an engine, given by its number. Waiting for results is one if all of them are results of
the engine. -/
def Step.isOf (a : Nat) (h : Host) : Step → Bool
  | .create _ _ => h.engines.length == a
  | .engine name _ => h.number? name == some a
  | .owners registry (.register owner _) =>
    ((h.registry registry).owners.get? owner).getD h.engines.length == a
  | .owners registry (.unregister owner) => (h.registry registry).owners.get? owner == some a
  | .owners registry (.get owner) => (h.registry registry).owners.get? owner == some a
  | .owners registry (.has owner) => (h.registry registry).owners.get? owner == some a
  | .start jobs => !jobs.isEmpty && jobs.all fun n => (h.handle? a n).isNone
  | _ => false

/-- What is left of a step: only the results of other engines are waited for. -/
def Step.without (a : Nat) (h : Host) : Step → Step
  | .start jobs => .start (jobs.filterMap (h.handle? a))
  | s => s

/-- What is left of an answer, after the step: other jobs have moved up. -/
def Reply.without (a : Nat) (h : Host) : Reply → Reply
  | .pending job => .pending ((h.handle? a job).getD job)
  | .done results => .done (h.resultsWithout a results)
  | reply => reply

/-- What a step of owners answers without an engine: other owners are counted only. -/
def Host.ownerReplyWithout (a : Nat) (h : Host) (registry : String) : OwnerStep → Reply
  | .size => .number ((h.registry registry).without a).owners.size
  | s => (h.ownerStep registry s).2

/-- What is left of the answer of a step: it has the notes that other jobs left. -/
def Host.answerWithout (a : Nat) (h : Host) (s : Step) : Noted (Except Fault Reply) :=
  let reply := (h.step s).2.result.map (Reply.without a (h.step s).1)
  match s with
  | .start jobs => ⟨reply, (h.othersNotes a jobs).1 ++ (h.othersNotes a jobs).2⟩
  | .owners registry s => silent (.ok (h.ownerReplyWithout a registry s))
  | _ => ⟨reply, (h.step s).2.notes⟩

/-! ## Names and owners -/

namespace Host

variable {h : Host}

theorem nameOf?_without (h : Host) {b : Nat} (hb : b ≠ a) :
    (h.without a).nameOf? (slot a b) = h.nameOf? b := by
  show ((Table.without a h.names).find? fun e => e.2 == slot a b).map (·.1) = _
  rw [Table.find?_without h.names hb, Option.map_map]
  rfl

theorem registry_without (h : Host) (name : String) :
    (h.without a).registry name = (h.registry name).without a := by
  show ((h.registries.map (Registry.without a))[h.registryNumber name]?).getD {} = _
  rw [List.getElem?_map, registry]
  cases h.registries[h.registryNumber name]? <;> rfl

theorem without_setOwners (h : Host) (registry : String) (owners : Owners) :
    (h.setOwners registry owners).without a =
      (h.without a).setOwners registry ⟨Table.without a owners.engines⟩ := by
  have hregistries : (h.registries.modify (h.registryNumber registry)
        fun r => { r with owners }).map (Registry.without a) =
      (h.registries.map (Registry.without a)).modify (h.registryNumber registry)
        fun r => { r with owners := ⟨Table.without a owners.engines⟩ } := by
    apply List.ext_getElem?
    intro i
    rw [List.getElem?_map, List.getElem?_modify, List.getElem?_modify, List.getElem?_map]
    cases h.registries[i]? with
    | none => rfl
    | some r =>
        simp only [Option.map_eq_map, Option.map_some]
        split <;> rfl
  simp only [without, setOwners, hregistries]
  rfl

/-- Owners that look the same without the engine make no difference. -/
theorem without_setOwners_self {registry : String} {owners : Owners}
    (hsame : Table.without a owners.engines =
      Table.without a (h.registry registry).owners.engines) :
    (h.setOwners registry owners).without a = h.without a := by
  rw [without_setOwners, hsame]
  have hregistries : (h.without a).registries.modify (h.registryNumber registry)
      (fun r => { r with
        owners := ⟨Table.without a (h.registry registry).owners.engines⟩ }) =
      (h.without a).registries := by
    apply List.ext_getElem?
    intro i
    rw [List.getElem?_modify]
    show (fun r => _) <$> (h.registries.map (Registry.without a))[i]? =
      (h.registries.map (Registry.without a))[i]?
    rw [List.getElem?_map]
    cases hr : h.registries[i]? with
    | none => rfl
    | some r =>
        simp only [Option.map_eq_map, Option.map_some]
        split
        · rename_i hi
          have hregistry : h.registry registry = r := by rw [Host.registry, hi, hr]; rfl
          rw [hregistry]
          rfl
        · rfl
  have hnumber : (h.without a).registryNumber registry = h.registryNumber registry := rfl
  rw [setOwners, hnumber, hregistries]

/-! ## Names -/

theorem without_giveName {name : String} {b : Nat} (hname : h.number? name ≠ some a) (hb : b ≠ a) :
    (h.giveName name b).without a = (h.without a).giveName name (slot a b) := by
  simp only [without, giveName, Table.without_put hname hb]
  rfl

theorem without_giveName_self {name : String} (hname : ∀ n, h.number? name = some n → n = a) :
    (h.giveName name a).without a = h.without a := by
  simp only [without, giveName, Table.without_put_self hname]
  rfl

theorem without_addEngine (hlength : h.engines.length ≠ a) (e : Engine) :
    (h.addEngine e).1.without a = ((h.without a).addEngine e).1 ∧
      ((h.without a).addEngine e).2 = slot a h.engines.length := by
  refine ⟨?_, (slot_length hlength).symm⟩
  simp only [without, addEngine, eraseIdx_append_other hlength]
  rfl

theorem without_addEngine_self (hlength : h.engines.length = a) (e : Engine) :
    (h.addEngine e).1.without a = h.without a := by
  simp only [without, addEngine, eraseIdx_append_self hlength]
  rfl

/-! ## Steps of the engine -/

/-- No name passes between the engine and another one in a step. -/
def NamesStay (a : Nat) (h h' : Host) : Prop :=
  ∀ name n m, h.number? name = some n → h'.number? name = some m → (n = a ↔ m = a)

/-- A name that is given to the engine was that of no other. -/
theorem NamesStay.was_own {h' : Host} (hstay : NamesStay a h h') {name : String}
    (hafter : h'.number? name = some a) : ∀ n, h.number? name = some n → n = a :=
  fun n hn => (hstay name n a hn hafter).mpr rfl

/-- A name that is given to another engine was not that of the engine. -/
theorem NamesStay.was_other {h' : Host} (hstay : NamesStay a h h') {name : String} {b : Nat}
    (hafter : h'.number? name = some b) (hb : b ≠ a) : h.number? name ≠ some a :=
  fun hn => hb ((hstay name a b hn hafter).mp rfl)

/-- Jobs that are added do not change the numbers of those that were started. -/
theorem without_addJobs (hr : h.Ready) (more : List Awaited) :
    ({ h with jobs := h.jobs ++ more } : Host).without a =
      { h.without a with
        jobs := (h.without a).jobs ++ more.filterMap (Awaited.without? a) } := by
  have hstarted : h.started.filterMap (({ h with jobs := h.jobs ++ more } : Host).handle? a) =
      h.started.filterMap (h.handle? a) := by
    apply List.filterMap_congr
    intro n hn
    have hlt : n < (enginesOf h.jobs).length := by
      rw [enginesOf, List.length_map]
      exact hr.started n hn
    simp only [handle?, enginesOf, List.map_append]
    exact handle?_append hlt _
  simp only [without, hstarted, List.filterMap_append]

theorem without_addJobs_self (hr : h.Ready) (jobs : List Job) :
    ({ h with jobs := h.jobs ++ jobs.map fun job => { engine := a, job } } : Host).without a =
      h.without a := by
  have hnone : (jobs.map fun job => ({ engine := a, job } : Awaited)).filterMap
      (Awaited.without? a) = [] := by
    rw [List.filterMap_map, List.filterMap_eq_nil_iff]
    intro job _
    simp [Awaited.without?]
  rw [without_addJobs hr, hnone, List.append_nil]

theorem without_addJobs_other (hr : h.Ready) {b : Nat} (hb : b ≠ a) (jobs : List Job) :
    ({ h with jobs := h.jobs ++ jobs.map fun job => { engine := b, job } } : Host).without a =
      { h.without a with
        jobs := (h.without a).jobs ++ jobs.map fun job => { engine := slot a b, job } } := by
  have hothers : (jobs.map fun job => ({ engine := b, job } : Awaited)).filterMap
      (Awaited.without? a) = jobs.map fun job => { engine := slot a b, job } := by
    rw [List.filterMap_map, ← List.filterMap_eq_map]
    apply List.filterMap_congr
    intro job _
    simp [Awaited.without?, hb]
  rw [without_addJobs hr, hothers]

theorem without_engineStep_self (hr : h.Ready) (e : Engine) (s : EngineStep) :
    (h.engineStep a e s).1.without a = h.without a := by
  have hchanged : ∀ (e' : Engine) (jobs : List Job),
      ({ h.setEngine a e' with
          jobs := h.jobs ++ jobs.map fun job => { engine := a, job } } : Host).without a =
        h.without a := by
    intro e' jobs
    exact (without_addJobs_self (hr.setEngine a e') jobs).trans (without_setEngine_self h e')
  cases s with
  | validate field value extra =>
      rw [engineStep_validate]
      exact hchanged _ _
  | validateAll values =>
      rw [engineStep_validateAll]
      exact hchanged _ _
  | attach field text => exact without_setEngine_self h _
  | detach field => exact without_setEngine_self h _
  | setLocale locale => exact without_setEngine_self h _
  | bag s => exact without_setEngine_self h _
  | extend name d => exact without_setEngine_self h _
  | _ => rfl

/-! ## Registered owners -/

theorem without_registerOwner_self {registry owner newName : String}
    (hself : h.engineOfOwner registry owner = a)
    (hstay : NamesStay a h (h.registerOwner registry owner newName).1) :
    (h.registerOwner registry owner newName).1.without a = h.without a := by
  have hmade : (h.withOwner registry owner).without a = h.without a := by
    unfold withOwner
    cases howner : (h.registry registry).owners.get? owner with
    | some n => exact without_setOwners_self rfl
    | none =>
        have hlength : h.engines.length = a := by simpa [engineOfOwner, howner] using hself
        refine (without_setOwners_self ?_).trans (without_addEngine_self hlength _)
        rw [hlength]
        apply Table.without_put_self
        intro n hn
        rw [Owners.get?] at howner
        simp [howner] at hn
  rw [registerOwner_eq, hself] at hstay ⊢
  split
  · exact hmade
  · rename_i hnameless
    simp only [hnameless] at hstay
    have hafter : ((h.withOwner registry owner).giveName newName a).number? newName = some a :=
      Table.get?_put_self _ _ _
    have hown := hstay.was_own hafter
    rw [without_giveName_self, hmade]
    rw [number?, names_withOwner]
    exact hown

/-- A step of the engine leaves no trace in the rest of the host. -/
theorem without_step_self (hq : h.Quiet) (hreg : h.Registered) {s : Step}
    (hstay : NamesStay a h (h.step s).1) (hs : s.isOf a h = true) :
    (h.step s).1.without a = h.without a := by
  cases s with
  | create name e =>
      have hlength : h.engines.length = a := by simpa [Step.isOf] using hs
      have hname : (h.step (.create name e)).1.number? name = some a := by
        show Table.get? (Table.put h.names name h.engines.length) name = some a
        rw [Table.get?_put_self, hlength]
      have hadded := without_addEngine_self hlength e
      rw [← hadded, ← without_giveName_self (h := (h.addEngine e).1) (hstay.was_own hname), ← hlength]
      rfl
  | engine name s =>
      have hnumber : h.number? name = some a := by simpa [Step.isOf] using hs
      rcases h.step_engine_cases name s with hstep | ⟨n, e, hn, -, hstep⟩
      · rw [hstep]
      · rw [hnumber, Option.some.injEq] at hn
        rw [hstep, ← hn]
        exact without_engineStep_self hq.ready e s
  | catalog s => simp [Step.isOf] at hs
  | dictionary s => simp [Step.isOf] at hs
  | owners registry s =>
      cases s with
      | register owner newName =>
          have hself : h.engineOfOwner registry owner = a := by
            simpa [Step.isOf, engineOfOwner] using hs
          exact without_registerOwner_self hself hstay
      | unregister owner =>
          have howner : (h.registry registry).owners.get? owner = some a := by
            simpa [Step.isOf] using hs
          apply without_setOwners_self
          exact Table.without_remove_self (hreg.registry registry).1 howner
      | get owner => rfl
      | has owner => rfl
      | _ => simp [Step.isOf] at hs
  | start jobs =>
      simp only [Step.isOf, Bool.and_eq_true, List.all_eq_true] at hs
      have hnone : jobs.filterMap (h.handle? a) = [] := by
        rw [List.filterMap_eq_nil_iff]
        intro n hn
        exact Option.isNone_iff_eq_none.mp (hs.2 n hn)
      have hstarted := without_startEach (a := a) h jobs
      rw [hnone] at hstarted
      have hsame : (h.startEach jobs).1.without a = h.without a := (congrArg Prod.fst hstarted).symm
      have hsettled := without_settle (a := a) (h.startEach jobs).1
      rw [hsame, hq.without.settle] at hsettled
      exact (congrArg Prod.fst hsettled).symm
  | release gate passed => simp [Step.isOf] at hs
  | setProbe probe => simp [Step.isOf] at hs

/-! ## Steps of others -/

/-- The other engines are found under their names. -/
theorem number?_without {name : String} (hname : h.number? name ≠ some a) :
    (h.without a).number? name = (h.number? name).map (slot a) :=
  Table.get?_without hname

theorem engine?_without {name : String} (hname : h.number? name ≠ some a) :
    (h.without a).engine? name = h.engine? name := by
  rw [engine?, engine?, number?_without hname]
  cases hnumber : h.number? name with
  | none => rfl
  | some n => exact getElem?_eraseIdx_slot h.engines fun hn => hname (hn ▸ hnumber)

/-- A job that another engine adds has the next number without the engine, too. -/
theorem handle?_addJob (h : Host) {b : Nat} (hb : b ≠ a) (job : Job) :
    (h.addJob b job).1.handle? a h.jobs.length = some (h.without a).jobs.length :=
  handle?_before hb

theorem without_addJob (hr : h.Ready) {b : Nat} (hb : b ≠ a) (job : Job) :
    (h.addJob b job).1.without a = ((h.without a).addJob (slot a b) job).1 :=
  without_addJobs_other hr hb [job]

theorem engineStep_without (hr : h.Ready) {b : Nat} (hb : b ≠ a) (e : Engine) (s : EngineStep) :
    (h.without a).engineStep (slot a b) e s =
      ((h.engineStep b e s).1.without a,
        ⟨(h.engineStep b e s).2.result.map (Reply.without a (h.engineStep b e s).1),
          (h.engineStep b e s).2.notes⟩) := by
  have hset : ∀ e', (h.without a).setEngine (slot a b) e' = (h.setEngine b e').without a :=
    fun e' => (without_setEngine h hb e').symm
  have hjob : ∀ (e' : Engine) (job : Job) (notes : List CallNote),
      ((((h.without a).setEngine (slot a b) e').addJob (slot a b) job).1,
        (⟨.ok (.pending (((h.without a).setEngine (slot a b) e').addJob (slot a b) job).2), notes⟩ :
          Noted (Except Fault Reply))) =
        (((h.setEngine b e').addJob b job).1.without a,
          ⟨.ok (Reply.without a ((h.setEngine b e').addJob b job).1
            (.pending ((h.setEngine b e').addJob b job).2)), notes⟩) := by
    intro e' job notes
    have hnumber : ((h.setEngine b e').addJob b job).1.handle? a ((h.setEngine b e').addJob b job).2 =
        some ((h.setEngine b e').without a).jobs.length := handle?_addJob (h.setEngine b e') hb job
    have hpending : Reply.without a ((h.setEngine b e').addJob b job).1
        (.pending ((h.setEngine b e').addJob b job).2) =
          .pending ((h.setEngine b e').without a).jobs.length := by
      simp only [Reply.without, hnumber, Option.getD_some]
    rw [hpending, without_addJob (hr.setEngine b e') hb, hset]
    rfl
  cases s with
  | validate field value extra =>
      have hshared : (h.without a).shared = h.shared := rfl
      simp only [engineStep, hshared]
      generalize e.validate h.shared field value extra = r
      obtain ⟨e', result, notes⟩ := r
      cases result with
      | error f => simp only [hset]; rfl
      | ok v =>
          cases v with
          | known passed => simp only [hset]; rfl
          | pending p => exact hjob e' _ notes
  | validateAll values =>
      have hshared : (h.without a).shared = h.shared := rfl
      simp only [engineStep, hshared]
      generalize e.validateAll h.shared values = r
      obtain ⟨e', result, notes⟩ := r
      cases result with
      | known passed => simp only [hset]; rfl
      | pending verdicts => exact hjob e' _ notes
  | extend name d =>
      have hsupplied : (h.without a).supplied d = h.supplied d := rfl
      simp only [engineStep, hsupplied, hset]
      cases (e.extend name (h.supplied d)).2 <;> rfl
  | attach field text => simp only [engineStep, hset]; rfl
  | detach field => simp only [engineStep, hset]; rfl
  | setLocale locale => simp only [engineStep, hset]; rfl
  | bag s => simp only [engineStep, hset]; rfl
  | _ => rfl

theorem catalogStep_without (h : Host) (s : CatalogStep) :
    (h.without a).catalogStep s =
      ((h.catalogStep s).1.without a,
        (h.catalogStep s).2.map (Reply.without a (h.catalogStep s).1)) := by
  cases s with
  | register name d =>
      have hsupplied : (h.without a).supplied d = h.supplied d := rfl
      have hshared : (h.without a).shared = h.shared := rfl
      simp only [catalogStep, hsupplied, hshared]
      cases (h.shared.catalog.register h.shared.dictionary name (h.supplied d)).2.2 <;> rfl
  | _ => rfl

theorem dictionaryStep_without (h : Host) (s : DictionaryStep) :
    (h.without a).dictionaryStep s =
      ((h.dictionaryStep s).1.without a,
        (h.dictionaryStep s).2.map (Reply.without a (h.dictionaryStep s).1)) := by
  have hshared : (h.without a).shared = h.shared := rfl
  have hfolder : (h.without a).folder = h.folder := rfl
  cases s with
  | update partials =>
      simp only [dictionaryStep, merged, hshared]
      cases (h.shared.dictionary.update partials).2 <;> rfl
  | set locale name message =>
      simp only [dictionaryStep, merged, hshared]
      cases (h.shared.dictionary.setMessage locale name message).2 <;> rfl
  | get locale name field params =>
      simp only [dictionaryStep, hshared]
      cases h.shared.dictionary.get? locale name with
      | none => rfl
      | some f => simp only; cases f field params <;> rfl
  | locales =>
      simp only [dictionaryStep, hshared]
      cases h.shared.dictionary.sortedLocales <;> rfl
  | loadFile path item =>
      simp only [dictionaryStep, hshared, hfolder]
      generalize h.shared.dictionary.loadFile _ path = r
      obtain ⟨dictionary, result⟩ := r
      cases result <;> rfl
  | loadDirectory path files =>
      simp only [dictionaryStep, hshared, hfolder]
      generalize h.shared.dictionary.loadDirectory _ path = r
      obtain ⟨dictionary, result⟩ := r
      cases result <;> rfl
  | _ => rfl

/-- The other owners have their engines. -/
theorem owner_without {registry owner : String}
    (howner : (h.registry registry).owners.get? owner ≠ some a) :
    ((h.without a).registry registry).owners.get? owner =
      ((h.registry registry).owners.get? owner).map (slot a) := by
  rw [registry_without]
  exact Table.get?_without howner

theorem has_owner_without {registry owner : String}
    (howner : (h.registry registry).owners.get? owner ≠ some a) :
    ((h.without a).registry registry).owners.has owner = (h.registry registry).owners.has owner := by
  rw [Bool.eq_iff_iff, Owners.has, Owners.has, Table.has_iff, Table.has_iff, ← Table.get?_isSome_iff,
    ← Table.get?_isSome_iff]
  have hsame := congrArg Option.isSome (owner_without howner)
  rw [Option.isSome_map] at hsame
  exact Eq.to_iff (congrArg (· = true) hsame)

theorem engineOfOwner_without {registry owner : String} (hother : h.engineOfOwner registry owner ≠ a) :
    (h.without a).engineOfOwner registry owner = slot a (h.engineOfOwner registry owner) := by
  have howner : (h.registry registry).owners.get? owner ≠ some a := by
    intro hself
    exact hother (by rw [engineOfOwner, hself, Option.getD_some])
  rw [engineOfOwner, owner_without howner]
  rw [engineOfOwner] at hother ⊢
  cases hget : (h.registry registry).owners.get? owner with
  | some n => rfl
  | none =>
      rw [hget, Option.getD_none] at hother
      exact (slot_length hother).symm

theorem withOwner_without {registry owner : String} (hother : h.engineOfOwner registry owner ≠ a) :
    (h.without a).withOwner registry owner = (h.withOwner registry owner).without a := by
  rw [engineOfOwner] at hother
  cases hget : (h.registry registry).owners.get? owner with
  | some n =>
      rw [hget, Option.getD_some] at hother
      have hget' := @owner_without a h registry owner
        (by rw [hget, ne_eq, Option.some.injEq]; exact hother)
      rw [hget, Option.map_some] at hget'
      simp only [withOwner, hget, hget']
      rw [without_setOwners, registry_without]
      rfl
  | none =>
      rw [hget, Option.getD_none] at hother
      have hget' := @owner_without a h registry owner
        (by rw [hget]; simp)
      rw [hget, Option.map_none] at hget'
      have hnone : Table.get? (h.registry registry).owners.engines owner ≠ some a := by
        rw [Owners.get?] at hget
        rw [hget]
        simp
      obtain ⟨hadded, hnumber⟩ :=
        without_addEngine hother (Engine.ofRules (h.registry registry).rules (.text englishLocale) [])
      simp only [withOwner, hget, hget']
      rw [without_setOwners, hadded, Table.without_put hnone hother, slot_length hother,
        registry_without]
      rfl

theorem registerOwner_without {registry owner newName : String}
    (hother : h.engineOfOwner registry owner ≠ a)
    (hstay : NamesStay a h (h.registerOwner registry owner newName).1) :
    (h.without a).registerOwner registry owner newName =
      ((h.registerOwner registry owner newName).1.without a,
        (h.registerOwner registry owner newName).2) := by
  have hnumber := engineOfOwner_without hother
  have hmade := withOwner_without hother
  have hengine : ((h.withOwner registry owner).without a).engines[
        slot a (h.engineOfOwner registry owner)]? =
      (h.withOwner registry owner).engines[h.engineOfOwner registry owner]? :=
    getElem?_eraseIdx_slot _ hother
  have hrules : ((h.without a).registry registry).rules = (h.registry registry).rules := by
    rw [registry_without]
    rfl
  rw [registerOwner_eq] at hstay ⊢
  rw [registerOwner_eq, hnumber, hmade, nameOf?_without h hother, hengine, hrules]
  cases hname : h.nameOf? (h.engineOfOwner registry owner) with
  | some name => rfl
  | none =>
      simp only [hname, Option.isSome_none, Bool.false_eq_true, if_false] at hstay ⊢
      have hafter : ((h.withOwner registry owner).giveName newName
          (h.engineOfOwner registry owner)).number? newName =
            some (h.engineOfOwner registry owner) := Table.get?_put_self _ _ _
      have hfree := hstay.was_other hafter hother
      rw [without_giveName _ hother]
      rw [number?, names_withOwner]
      exact hfree

theorem ownerStep_without {registry : String} {s : OwnerStep}
    (hs : (Step.owners registry s).isOf a h = false)
    (hstay : NamesStay a h (h.ownerStep registry s).1) :
    (h.without a).ownerStep registry s =
      ((h.ownerStep registry s).1.without a, h.ownerReplyWithout a registry s) := by
  cases s with
  | create rules =>
      simp only [ownerStep, addRegistry, without, ownerReplyWithout, List.map_append,
        List.length_map]
      rfl
  | register owner newName =>
      have hother : h.engineOfOwner registry owner ≠ a := by
        simpa [Step.isOf, engineOfOwner] using hs
      simp only [ownerStep, registerOwner_without hother hstay]
      rfl
  | unregister owner =>
      have howner : (h.registry registry).owners.get? owner ≠ some a := by simpa [Step.isOf] using hs
      have hremoved : Table.without a ((h.registry registry).owners.unregister owner).engines =
          Table.remove (Table.without a (h.registry registry).owners.engines) owner :=
        Table.without_remove _ owner
      simp only [ownerStep, ownerReplyWithout]
      rw [without_setOwners, hremoved, has_owner_without howner, registry_without]
      rfl
  | get owner =>
      have howner : (h.registry registry).owners.get? owner ≠ some a := by simpa [Step.isOf] using hs
      simp only [ownerStep, owner_without howner, ownerReplyWithout]
      cases hget : (h.registry registry).owners.get? owner with
      | none => rfl
      | some n =>
          have hother : n ≠ a := fun hn => howner (hn ▸ hget)
          simp only [Option.map_some, Option.bind_some, nameOf?_without h hother]
  | has owner =>
      have howner : (h.registry registry).owners.get? owner ≠ some a := by simpa [Step.isOf] using hs
      simp only [ownerStep, has_owner_without howner, ownerReplyWithout]
  | size => simp only [ownerStep, registry_without, ownerReplyWithout]
  | clear =>
      simp only [ownerStep, ownerReplyWithout, without_setOwners]
      rfl

/-- Results are told of jobs only. -/
theorem lt_of_mem_closeJobs {numbers : List Nat} {r : Nat × Bool}
    (hr : r ∈ (h.closeJobs numbers).2) : r.1 < h.jobs.length := by
  induction numbers generalizing h with
  | nil => simp [closeJobs] at hr
  | cons n ns ih =>
      have hresults : (h.closeJobs (n :: ns)).2 =
          ((h.closeJob n).2.map fun passed => (n, passed)).toList ++
            ((h.closeJob n).1.closeJobs ns).2 := rfl
      rw [hresults] at hr
      rcases List.mem_append.mp hr with hhere | hlater
      · rw [Option.mem_toList, Option.map_eq_some_iff] at hhere
        obtain ⟨passed, hclosed, rfl⟩ := hhere
        by_contra hle
        have hnone : (h.closeJob n).2 = none := by
          simp only [closeJob, List.getElem?_eq_none (Nat.le_of_not_lt hle)]
        rw [hnone] at hclosed
        simp at hclosed
      · have hlt := ih hlater
        rwa [length_jobs_of_engines (h.enginesOf_closeJob n)] at hlt

theorem lt_of_mem_settle {r : Nat × Bool} (hr : r ∈ h.settle.2) : r.1 < h.jobs.length := by
  have hlt := lt_of_mem_closeJobs hr
  rwa [length_jobs_of_engines (h.enginesOf_advance h.started)] at hlt

theorem step_start_without (h : Host) (jobs : List Nat) :
    (h.without a).step (.start (jobs.filterMap (h.handle? a))) =
      ((h.step (.start jobs)).1.without a, h.answerWithout a (.start jobs)) := by
  have hstarted := without_startEach (a := a) h jobs
  have hsettled := without_settle (a := a) (h.startEach jobs).1
  have hsame : (h.startEach jobs).1.handle? a = h.handle? a :=
    handle?_of_engines (h.enginesOf_startEach jobs)
  have hresults := (h.startEach jobs).1.inOrder_without (a := a) jobs fun r hr => lt_of_mem_settle hr
  rw [hsame] at hresults
  have hafter := resultsWithout_of_engines (a := a) (enginesOf_settle (h.startEach jobs).1)
  simp only [step, startJobs, hstarted, hsettled, hresults, answerWithout]
  congr 2
  exact congrArg (fun results => Except.ok (Reply.done results)) (hafter _).symm

theorem step_release_without (h : Host) (gate : String) (passed : Bool) :
    (h.without a).step (.release gate passed) =
      ((h.step (.release gate passed)).1.without a, h.answerWithout a (.release gate passed)) := by
  have hopen : (h.without a).openGate gate passed = (h.openGate gate passed).without a := rfl
  have hsettled := without_settle (a := a) (h.openGate gate passed)
  have hengines := enginesOf_settle (h.openGate gate passed)
  have hlength := length_jobs_of_engines hengines
  have hrange : List.range ((h.openGate gate passed).settle.1.without a).jobs.length =
      (List.range (h.openGate gate passed).settle.1.jobs.length).filterMap
        ((h.openGate gate passed).handle? a) := by
    have hnumbers := filterMap_handle?_range (a := a) (enginesOf (h.openGate gate passed).jobs)
    rw [enginesOf, List.length_map] at hnumbers
    have hothers : ((h.openGate gate passed).settle.1.without a).jobs.length =
        (enginesOf (h.openGate gate passed).jobs).countP (· ≠ a) := by
      rw [← hengines]
      exact length_filterMap_without? _
    rw [hothers, hlength]
    exact hnumbers.symm
  have hresults := (h.openGate gate passed).inOrder_without (a := a)
    (List.range (h.openGate gate passed).settle.1.jobs.length) fun r hr => lt_of_mem_settle hr
  have hafter := resultsWithout_of_engines (a := a) hengines
  simp only [step, hopen, hsettled, hrange, hresults, answerWithout]
  congr 2
  exact congrArg (fun results => Except.ok (Reply.done results)) (hafter _).symm

/-- A step of others does without the engine what it does with it. -/
theorem step_without (hr : h.Ready) {s : Step} (hstay : NamesStay a h (h.step s).1)
    (hs : s.isOf a h = false) :
    (h.without a).step (s.without a h) = ((h.step s).1.without a, h.answerWithout a s) := by
  cases s with
  | create name e =>
      have hlength : h.engines.length ≠ a := by simpa [Step.isOf] using hs
      have hname : (h.step (.create name e)).1.number? name = some h.engines.length :=
        Table.get?_put_self _ _ _
      have hfree : (h.addEngine e).1.number? name ≠ some a := hstay.was_other hname hlength
      obtain ⟨hadded, hnumber⟩ := without_addEngine hlength e
      have hgiven := without_giveName hfree hlength
      rw [hadded, ← hnumber] at hgiven
      exact Prod.ext hgiven.symm rfl
  | engine name s =>
      have hother : h.number? name ≠ some a := by simpa [Step.isOf] using hs
      have hnumber := number?_without hother
      have hengine := engine?_without hother
      cases hn : h.number? name with
      | none =>
          rw [hn, Option.map_none] at hnumber
          simp only [Step.without, answerWithout, step, hn, hnumber]
          rfl
      | some n =>
          have hna : n ≠ a := fun hna => hother (hna ▸ hn)
          rw [hn, Option.map_some] at hnumber
          cases he : h.engine? name with
          | none =>
              rw [he] at hengine
              simp only [Step.without, answerWithout, step, hn, he, hnumber, hengine]
              rfl
          | some e =>
              rw [he] at hengine
              simp only [Step.without, answerWithout, step, hn, he, hnumber, hengine]
              exact engineStep_without hr hna e s
  | catalog s =>
      simp only [Step.without, answerWithout, step, catalogStep_without]
      rfl
  | dictionary s =>
      simp only [Step.without, answerWithout, step, dictionaryStep_without]
      rfl
  | owners registry s =>
      simp only [Step.without, answerWithout, step, ownerStep_without hs hstay]
  | start jobs => exact step_start_without h jobs
  | release gate passed => exact step_release_without h gate passed
  | setProbe probe => rfl

end Host

end FieldRules
