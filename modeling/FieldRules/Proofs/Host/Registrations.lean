import FieldRules.Proofs.Catalog.Builtin
import FieldRules.Proofs.Catalog.Register
import FieldRules.Proofs.Host.Frame
import FieldRules.Proofs.Host.Log
import FieldRules.Yaml.Reader

/-!
# Registrations over whole sessions

What the catalog and the overlays of a host hold is read off the log of its steps. In the catalog the
first registration of a name counts, since the catalog was last cleared or seeded; in an overlay the last
one does (`run_registrations`). Every other step, and every registration that is refused, leaves both as
they were.
-/

namespace FieldRules

/-! ## Registrations in the log -/

namespace Happening

/-- The definition that is registered in the catalog under a name, unless the registration is
refused. -/
def registered? (name : String) (x : Happening) : Option Definition :=
  match x.step, x.answer with
  | .catalog (.register n given), .ok _ =>
    if n = name then
      (Definition.normalize n (x.before.supplied given)).toOption.map Definition.asShared
    else none
  | _, _ => none

/-- The definition that is registered with an engine under a name, unless the registration is
refused. -/
def extended? (engine : Nat) (name : String) (x : Happening) : Option Definition :=
  match x.step, x.answer with
  | .engine e (.extend n given), .ok _ =>
    if x.before.number? e = some engine ∧ n = name then
      (Definition.normalize n (x.before.supplied given)).toOption.map Definition.asOwn
    else none
  | _, _ => none

/-- It is a registration, in the catalog or with an engine. -/
def IsRegistration (x : Happening) : Prop :=
  (∃ name given, x.step = .catalog (.register name given)) ∨
    ∃ engine name given, x.step = .engine engine (.extend name given)

end Happening

/-- The catalog as it was last cleared or seeded, and what happened since. -/
structure Era where
  start : Catalog := Builtin.catalog
  since : List Happening := []

/-- Clearing and seeding the catalog begin a new era. -/
def Era.next (era : Era) (x : Happening) : Era :=
  match x.step with
  | .catalog .clear => { start := {} }
  | .catalog .reset => {}
  | _ => { era with since := era.since ++ [x] }

/-- The era that a log ends in. -/
def Era.ofLog (log : List Happening) : Era := log.foldl Era.next {}

/-- What the catalog holds under a name in an era. -/
def Era.holds? (era : Era) (name : String) : Option Definition :=
  (era.start.get? name).or (era.since.findSome? (·.registered? name))

/-- The step makes no engine but one that has its rules attached one after the other. -/
def Step.MakesEngines : Step → Prop
  | .create _ e => ∃ rules locale attributes, e = Engine.ofRules rules locale attributes
  | _ => True

/-- What the catalog and the overlays hold after a session, and how they came to it. -/
structure Registrations (yaml : YamlReader) (steps : List Step) : Prop where
  /-- The catalog holds under a name what it was cleared or seeded with, or else the first definition
  that was registered since. -/
  first : ∀ name, ((Host.fresh yaml).run steps).1.shared.catalog.get? name =
    (Era.ofLog ((Host.fresh yaml).log steps)).holds? name
  /-- What the catalog was seeded with is never registered again. -/
  seeded : ∀ x ∈ (Era.ofLog ((Host.fresh yaml).log steps)).since, ∀ name given,
    x.step = .catalog (.register name given) →
    ((Era.ofLog ((Host.fresh yaml).log steps)).start.get? name).isSome = true →
      x.answer = .error (.setup (.duplicate name))
  /-- Steps of another kind leave the catalog as it was. -/
  steady : ∀ x ∈ (Host.fresh yaml).log steps, (∀ name given, x.step ≠ .catalog (.register name given)) →
    x.step ≠ .catalog .clear → x.step ≠ .catalog .reset →
      x.after.shared.catalog = x.before.shared.catalog
  /-- An overlay resolves a name to the last definition that was registered with its engine, and
  otherwise to that of the catalog. -/
  last : ∀ (n : Nat) e name, ((Host.fresh yaml).run steps).1.engines[n]? = some e →
    e.overlay.resolve ((Host.fresh yaml).run steps).1.shared.catalog name =
      (((Host.fresh yaml).log steps).reverse.findSome? (·.extended? n name)).or
        (((Host.fresh yaml).run steps).1.shared.catalog.get? name)
  /-- A registration that is not refused answers with the definition that is kept. -/
  answered : ∀ x ∈ (Host.fresh yaml).log steps, ∀ reply, x.answer = .ok reply →
    (∀ name given, x.step = .catalog (.register name given) →
      ∃ d, x.registered? name = some d ∧ reply = .definition (some d)) ∧
    ∀ engine name given, x.step = .engine engine (.extend name given) →
      ∃ n d, x.before.number? engine = some n ∧ x.extended? n name = some d ∧
        reply = .definition (some d)
  /-- The definitions of the catalog are named by their keys and shared, and their messages are in the
  dictionary. -/
  catalog_form : ∀ name d, ((Host.fresh yaml).run steps).1.shared.catalog.get? name = some d →
    d.name = name ∧ d.shared = true ∧ d.messages = []
  /-- The definitions of overlays are named by their keys and not shared. -/
  overlay_form : ∀ e ∈ ((Host.fresh yaml).run steps).1.engines, ∀ name d,
    Table.get? e.overlay.definitions name = some d → d.name = name ∧ d.shared = false
  /-- A registration that is refused leaves the catalog and all engines as they were. -/
  refused : ∀ x ∈ (Host.fresh yaml).log steps, x.IsRegistration → ∀ fault, x.answer = .error fault →
    x.after.shared.catalog = x.before.shared.catalog ∧ x.after.engines = x.before.engines

/-! ## The catalog step by step -/

namespace Host

/-- Only steps of the catalog change the catalog. -/
theorem catalog_step (h : Host) {s : Step} (hs : ∀ c, s ≠ .catalog c) :
    (h.step s).1.shared.catalog = h.shared.catalog := by
  cases s with
  | create name e => rfl
  | engine name s =>
      simp only [step]
      split
      · rw [shared_engineStep]
      · rfl
  | catalog c => exact absurd rfl (hs c)
  | dictionary s => exact (h.catalog_dictionaryStep s).1
  | owners registry s => exact congrArg Shared.catalog (h.ownerStep_engines registry s).1
  | start jobs =>
      have hstarted := (keeps_startEach h jobs).trans (keeps_settle _)
      exact congrArg Shared.catalog hstarted.shared
  | release gate passed => exact congrArg Shared.catalog (keeps_settle (h.openGate gate passed)).shared
  | setProbe probe => rfl

/-- The answer of a registration in the catalog, as the log has it. -/
theorem registered?_register (h : Host) (n name : String) (given : GivenDefinition) :
    (Happening.of h (.catalog (.register n given))).registered? name =
      if n = name then
        (h.shared.catalog.register h.shared.dictionary n (h.supplied given)).2.2.toOption
      else none := by
  rw [Catalog.register_result]
  simp only [Happening.registered?, Happening.of, step, catalogStep, silent, refused]
  cases (h.shared.catalog.register h.shared.dictionary n (h.supplied given)).2.2 with
  | error e => simp [Except.mapError, Except.map, Except.isOk, Except.toBool]
  | ok d => simp [Except.mapError, Except.map, Except.isOk, Except.toBool]

theorem get?_step_register (h : Host) (n name : String) (given : GivenDefinition) :
    (h.step (.catalog (.register n given))).1.shared.catalog.get? name =
      (h.shared.catalog.get? name).or
        ((Happening.of h (.catalog (.register n given))).registered? name) := by
  rw [registered?_register]
  exact Catalog.get?_register name

end Host

namespace Era

@[simp] theorem ofLog_concat (log : List Happening) (x : Happening) :
    ofLog (log ++ [x]) = (ofLog log).next x := by
  simp [ofLog]

/-- An era starts without definitions or with those that everybody has. -/
theorem start_ofLog (log : List Happening) :
    (ofLog log).start = {} ∨ (ofLog log).start = Builtin.catalog := by
  induction log using List.reverseRecOn with
  | nil => exact Or.inr rfl
  | append_singleton log x ih =>
      rw [ofLog_concat, next]
      split
      · exact Or.inl rfl
      · exact Or.inr rfl
      · exact ih

theorem holds?_since (era : Era) (x : Happening) (name : String) :
    ({ era with since := era.since ++ [x] } : Era).holds? name =
      (era.holds? name).or (x.registered? name) := by
  simp [holds?, List.findSome?_append, Option.or_assoc]

/-- An era that tells what the catalog holds still does after a step. -/
theorem holds?_next {h : Host} {era : Era}
    (hera : ∀ name, h.shared.catalog.get? name = era.holds? name) (s : Step) (name : String) :
    (h.step s).1.shared.catalog.get? name = (era.next (.of h s)).holds? name := by
  have hkept : (∀ n given, s ≠ .catalog (.register n given)) →
      (h.step s).1.shared.catalog = h.shared.catalog →
      (h.step s).1.shared.catalog.get? name =
        ({ era with since := era.since ++ [.of h s] } : Era).holds? name := by
    intro hs hsame
    have hnone : (Happening.of h s).registered? name = none := by
      unfold Happening.registered?
      split
      · rename_i n given reply hstep _
        exact absurd hstep (hs n given)
      · rfl
    rw [holds?_since, hnone, Option.or_none, hsame, hera]
  by_cases hcatalog : ∃ c, s = .catalog c
  · obtain ⟨c, rfl⟩ := hcatalog
    cases c with
    | register n given =>
        rw [Host.get?_step_register, hera]
        exact (holds?_since era _ name).symm
    | clear => rfl
    | reset => exact (Option.or_none).symm
    | _ => exact hkept (fun n given hs => by simp at hs) rfl
  · have hs : ∀ c, s ≠ .catalog c := fun c hc => hcatalog ⟨c, hc⟩
    have hnext : era.next (.of h s) = { era with since := era.since ++ [.of h s] } := by
      unfold next
      split
      · rename_i hstep
        exact absurd hstep (hs _)
      · rename_i hstep
        exact absurd hstep (hs _)
      · rfl
    rw [hnext]
    exact hkept (fun n given => hs _) (h.catalog_step hs)

/-- The log of a session tells what its catalog holds. -/
theorem holds?_log (yaml : YamlReader) (steps : List Step) (name : String) :
    ((Host.fresh yaml).run steps).1.shared.catalog.get? name =
      (ofLog ((Host.fresh yaml).log steps)).holds? name := by
  induction steps using List.reverseRecOn generalizing name with
  | nil => exact (Option.or_none).symm
  | append_singleton steps s ih =>
      rw [Host.run_concat, Host.log_concat, ofLog_concat]
      exact holds?_next ih s name

end Era

/-! ## The overlays step by step -/

namespace Host

/-- The definition that an engine has of its own under a name. -/
def own? (h : Host) (n : Nat) (name : String) : Option Definition :=
  (h.engines[n]?).bind fun e => Table.get? e.overlay.definitions name

/-- The overlays of the engines. -/
def overlays (h : Host) : List Overlay := h.engines.map (·.overlay)

variable {h h' : Host}

theorem own?_eq (h : Host) (n : Nat) (name : String) :
    h.own? n name = (h.overlays[n]?).bind fun o => Table.get? o.definitions name := by
  rw [overlays, List.getElem?_map, own?]
  cases h.engines[n]? <;> rfl

theorem overlays_of_setups (hsame : h'.setups = h.setups) : h'.overlays = h.overlays := by
  have hsetups : ∀ k : Host, k.overlays = k.setups.map (·.overlay) := by
    intro k
    rw [overlays, setups, List.map_map]
    rfl
  rw [hsetups, hsetups, hsame]

theorem own?_of_overlays (hsame : h'.overlays = h.overlays) : h'.own? = h.own? := by
  funext n name
  rw [own?_eq, own?_eq, hsame]

/-- An engine that is added without validators of its own makes no difference. -/
theorem own?_of_added {e : Engine} (hadded : h'.engines = h.engines ++ [e]) (hnone : e.overlay = {}) :
    h'.own? = h.own? := by
  funext n name
  rw [own?, own?, hadded]
  rcases Nat.lt_trichotomy n h.engines.length with hlt | heq | hgt
  · rw [List.getElem?_append_left hlt]
  · subst heq
    simp [hnone]
  · have hlen : (h.engines ++ [e]).length ≤ n := by
      rw [List.length_append, List.length_singleton]
      omega
    rw [List.getElem?_eq_none hlen, List.getElem?_eq_none (Nat.le_of_lt hgt)]

theorem overlay_ofRules (rules : Table String (List Rule)) (locale : Key)
    (attributes : Table String String) : (Engine.ofRules rules locale attributes).overlay = {} := by
  rw [Engine.sameSetup_ofRules rules locale attributes]

/-- Only registering a validator with an engine changes what engines have of their own. -/
theorem own?_step (h : Host) {s : Step} (hmakes : s.MakesEngines)
    (hs : ∀ engine name given, s ≠ .engine engine (.extend name given)) :
    (h.step s).1.own? = h.own? := by
  cases s with
  | create name e =>
      obtain ⟨rules, locale, attributes, rfl⟩ := hmakes
      exact own?_of_added rfl (overlay_ofRules rules locale attributes)
  | engine name s =>
      rcases h.step_engine_cases name s with hstep | ⟨n, e, -, hplace, hstep⟩
      · rw [hstep]
      · obtain ⟨e', hengines, hoverlay⟩ := h.engineStep_engines n s hplace
        have hsame := hoverlay fun name' given hgiven => hs name name' given (by rw [hgiven])
        apply own?_of_overlays
        rw [hstep, overlays, hengines]
        exact map_engines_set hplace hsame
  | catalog c => cases c <;> rfl
  | dictionary s =>
      have hengines := (h.catalog_dictionaryStep s).2
      apply own?_of_overlays
      exact congrArg (List.map (·.overlay)) hengines
  | owners registry s =>
      rcases (h.ownerStep_engines registry s).2 with hsame | ⟨rules, hadded⟩
      · apply own?_of_overlays
        exact congrArg (List.map (·.overlay)) hsame
      · exact own?_of_added hadded (overlay_ofRules _ _ _)
  | start jobs =>
      have hstarted := (keeps_startEach h jobs).trans (keeps_settle _)
      exact own?_of_overlays (overlays_of_setups hstarted.setups)
  | release gate passed =>
      have hsettled := keeps_settle (h.openGate gate passed)
      exact own?_of_overlays (overlays_of_setups hsettled.setups)
  | setProbe probe => rfl

/-- The answer of a registration with an engine, as the log has it. -/
theorem extended?_extend {engine : String} {m : Nat} {e : Engine} (hnumber : h.number? engine = some m)
    (hplace : h.engines[m]? = some e) (name' : String) (given : GivenDefinition) (n : Nat)
    (name : String) :
    (Happening.of h (.engine engine (.extend name' given))).extended? n name =
      if m = n ∧ name' = name then (e.overlay.register name' (h.supplied given)).2.toOption
      else none := by
  have he : h.engine? engine = some e := by rw [engine?, hnumber, Option.bind_some, hplace]
  rw [Overlay.register_result]
  simp only [Happening.extended?, Happening.of, step, hnumber, he, engineStep, Engine.extend,
    Overlay.register, silent, refused]
  cases hd : Definition.normalize name' (h.supplied given) with
  | error flaw => simp [Except.mapError, Except.map, Except.toOption]
  | ok d => simp [hnumber, hd, Except.mapError, Except.map, Except.toOption]

/-- An engine that registers a validator has the definition that is kept under its name. -/
theorem own?_step_extend (h : Host) (engine name' : String) (given : GivenDefinition) (n : Nat)
    (name : String) :
    (h.step (.engine engine (.extend name' given))).1.own? n name =
      ((Happening.of h (.engine engine (.extend name' given))).extended? n name).or
        (h.own? n name) := by
  rcases h.step_engine_cases engine (.extend name' given) with hstep | ⟨m, e, hnumber, hplace, hstep⟩
  · have hnone : (Happening.of h (.engine engine (.extend name' given))).extended? n name = none := by
      simp [Happening.extended?, Happening.of, hstep, silent]
    rw [hnone, hstep, Option.none_or]
  · rw [extended?_extend hnumber hplace, hstep]
    have hengines : (h.engineStep m e (.extend name' given)).1.engines =
        h.engines.set m { e with overlay := (e.overlay.register name' (h.supplied given)).1 } := rfl
    rw [own?, own?, hengines, List.getElem?_set]
    by_cases hn : m = n
    · subst hn
      rw [hplace]
      have hlt : m < h.engines.length := (List.getElem?_eq_some_iff.mp hplace).1
      simp only [if_true, hlt, Option.bind_some, Overlay.get?_register]
      simp only [true_and]
    · simp [hn]

/-- The log of a session tells what its engines have of their own. -/
theorem own?_log {yaml : YamlReader} {steps : List Step} (hmake : ∀ s ∈ steps, s.MakesEngines) (n : Nat)
    (name : String) :
    ((fresh yaml).run steps).1.own? n name =
      ((fresh yaml).log steps).reverse.findSome? (·.extended? n name) := by
  induction steps using List.reverseRecOn with
  | nil => rfl
  | append_singleton steps s ih =>
      obtain ⟨hbefore, hs⟩ := List.forall_mem_append.mp hmake
      rw [run_concat, log_concat, List.reverse_append, List.reverse_singleton,
        List.singleton_append, List.findSome?_cons, ← ih hbefore]
      by_cases hextend : ∃ engine name' given, s = .engine engine (.extend name' given)
      · obtain ⟨engine, name', given, rfl⟩ := hextend
        rw [own?_step_extend]
        cases Happening.extended? n name _ <;> rfl
      · have hother : ∀ engine name' given, s ≠ .engine engine (.extend name' given) :=
          fun engine name' given hs => hextend ⟨engine, name', given, hs⟩
        have hnone : (Happening.of ((fresh yaml).run steps).1 s).extended? n name = none := by
          unfold Happening.extended?
          split
          · rename_i hstep _
            exact absurd hstep (hother _ _ _)
          · rfl
        rw [hnone, own?_step _ (hs s (List.mem_singleton_self s)) hother]

/-! ## Single registrations -/

/-- A name that the catalog holds is refused. -/
theorem answer_register_of_taken (h : Host) {name : String} (given : GivenDefinition)
    (htaken : (h.shared.catalog.get? name).isSome = true) :
    (h.step (.catalog (.register name given))).2.result = .error (.setup (.duplicate name)) := by
  have hhas : h.shared.catalog.has name = true := by
    rw [Catalog.has_eq_isSome_get?]
    exact htaken
  simp only [step, catalogStep, Catalog.register_taken hhas]
  rfl

/-- A registration in the catalog that is refused leaves the catalog as it was, and no registration in
the catalog concerns an engine. -/
theorem step_register_refused (h : Host) {name : String} {given : GivenDefinition} {fault : Fault}
    (hrefused : (h.step (.catalog (.register name given))).2.result = .error fault) :
    (h.step (.catalog (.register name given))).1.shared.catalog = h.shared.catalog ∧
      (h.step (.catalog (.register name given))).1.engines = h.engines := by
  refine ⟨?_, rfl⟩
  rcases Catalog.register_cases h.shared.catalog h.shared.dictionary name (h.supplied given) with
    ⟨-, hr⟩ | ⟨e, -, -, hr⟩ | ⟨d, flaw, -, -, -, hr⟩ | ⟨d, -, -, hr⟩
  · simp only [step, catalogStep, hr]
  · simp only [step, catalogStep, hr]
  · simp only [step, catalogStep, hr]
  · simp [step, catalogStep, hr, silent, refused, Except.mapError, Except.map] at hrefused

/-- A registration with an engine that is refused leaves the engine as it was, and no registration with
an engine concerns the catalog. -/
theorem step_extend_refused (h : Host) {engine name : String} {given : GivenDefinition} {fault : Fault}
    (hrefused : (h.step (.engine engine (.extend name given))).2.result = .error fault) :
    (h.step (.engine engine (.extend name given))).1.shared.catalog = h.shared.catalog ∧
      (h.step (.engine engine (.extend name given))).1.engines = h.engines := by
  rcases h.step_engine_cases engine (.extend name given) with hstep | ⟨n, e, -, hplace, hstep⟩
  · rw [hstep]
    exact ⟨rfl, rfl⟩
  · rw [hstep] at hrefused ⊢
    refine ⟨rfl, ?_⟩
    have hengines : (h.engineStep n e (.extend name given)).1.engines =
        h.engines.set n { e with overlay := (e.overlay.register name (h.supplied given)).1 } := rfl
    have hoverlay : (e.overlay.register name (h.supplied given)).1 = e.overlay := by
      cases hresult : (e.overlay.register name (h.supplied given)).2 with
      | error flaw => exact Overlay.register_refused hresult
      | ok d =>
          simp [engineStep, Engine.extend, silent, refused, hresult, Except.mapError, Except.map]
            at hrefused
    obtain ⟨hlt, rfl⟩ := List.getElem?_eq_some_iff.mp hplace
    rw [hengines, hoverlay]
    exact List.set_getElem_self hlt

/-- A registration in the catalog that is not refused answers with what the log has. -/
theorem registered?_of_answer (h : Host) {name : String} {given : GivenDefinition} {reply : Reply}
    (hanswer : (h.step (.catalog (.register name given))).2.result = .ok reply) :
    ∃ d, (Happening.of h (.catalog (.register name given))).registered? name = some d ∧
      reply = .definition (some d) := by
  rw [registered?_register, if_pos rfl]
  simp only [step, catalogStep, silent, refused] at hanswer
  cases hresult : (h.shared.catalog.register h.shared.dictionary name (h.supplied given)).2.2 with
  | error flaw => simp [hresult, Except.mapError, Except.map] at hanswer
  | ok d =>
      simp only [hresult, Except.mapError, Except.map, Except.ok.injEq] at hanswer
      exact ⟨d, rfl, hanswer.symm⟩

/-- A registration with an engine that is not refused answers with what the log has. -/
theorem extended?_of_answer (h : Host) {engine name : String} {given : GivenDefinition} {reply : Reply}
    (hanswer : (h.step (.engine engine (.extend name given))).2.result = .ok reply) :
    ∃ n d, h.number? engine = some n ∧
      (Happening.of h (.engine engine (.extend name given))).extended? n name = some d ∧
        reply = .definition (some d) := by
  rcases h.step_engine_cases engine (.extend name given) with hstep | ⟨n, e, hnumber, hplace, hstep⟩
  · rw [hstep] at hanswer
    simp [silent] at hanswer
  · rw [hstep] at hanswer
    simp only [engineStep, Engine.extend, silent, refused] at hanswer
    cases hresult : (e.overlay.register name (h.supplied given)).2 with
    | error flaw => simp [hresult, Except.mapError, Except.map] at hanswer
    | ok d =>
        simp only [hresult, Except.mapError, Except.map, Except.ok.injEq] at hanswer
        refine ⟨n, d, hnumber, ?_, hanswer.symm⟩
        rw [extended?_extend hnumber hplace, if_pos ⟨rfl, rfl⟩, hresult]
        rfl

end Host

/-! ## The form of definitions -/

theorem Definition.name_of_toOption {name : String} {supplied : Supplied} {d : Definition}
    (h : (normalize name supplied).toOption = some d) : d.name = name := by
  cases hd : normalize name supplied with
  | error flaw => simp [hd, Except.toOption] at h
  | ok d' =>
      simp only [hd, Except.toOption, Option.some.injEq] at h
      rw [← h]
      exact name_normalize hd

theorem Happening.form_of_registered? {x : Happening} {name : String} {d : Definition}
    (h : x.registered? name = some d) : d.name = name ∧ d.shared = true ∧ d.messages = [] := by
  unfold registered? at h
  split at h
  · split at h
    · rename_i hname
      obtain ⟨d', hd', rfl⟩ := Option.map_eq_some_iff.mp h
      have hnamed := Definition.name_of_toOption hd'
      exact ⟨hnamed.trans hname, rfl, rfl⟩
    · simp at h
  · simp at h

theorem Happening.form_of_extended? {x : Happening} {n : Nat} {name : String} {d : Definition}
    (h : x.extended? n name = some d) : d.name = name ∧ d.shared = false := by
  unfold extended? at h
  split at h
  · split at h
    · rename_i hname
      obtain ⟨d', hd', rfl⟩ := Option.map_eq_some_iff.mp h
      have hnamed := Definition.name_of_toOption hd'
      exact ⟨hnamed.trans hname.2, rfl⟩
    · simp at h
  · simp at h

theorem Era.form_of_holds? {log : List Happening} {name : String} {d : Definition}
    (h : (ofLog log).holds? name = some d) : d.name = name ∧ d.shared = true ∧ d.messages = [] := by
  rcases Option.or_eq_some_iff.mp h with hstart | ⟨-, hsince⟩
  · rcases start_ofLog log with hnone | hseeded
    · rw [hnone] at hstart
      simp [Catalog.get?] at hstart
    · rw [hseeded] at hstart
      exact Builtin.form_of_get? hstart
  · obtain ⟨x, -, hx⟩ := List.exists_of_findSome?_eq_some hsince
    exact Happening.form_of_registered? hx

/-- While an era lasts, what it started with is refused. -/
theorem Era.refused_of_start {yaml : YamlReader} {steps : List Step} :
    ∀ x ∈ (ofLog ((Host.fresh yaml).log steps)).since, ∀ name given,
      x.step = .catalog (.register name given) →
      ((ofLog ((Host.fresh yaml).log steps)).start.get? name).isSome = true →
        x.answer = .error (.setup (.duplicate name)) := by
  induction steps using List.reverseRecOn with
  | nil => intro x hx; simp [Host.log, ofLog] at hx
  | append_singleton steps s ih =>
      rw [Host.log_concat, ofLog_concat]
      intro x hx name given hstep hstart
      unfold next at hx hstart
      split at hx
      · simp at hx
      · simp at hx
      · rename_i hclear hreset
        have hsame : ((ofLog ((Host.fresh yaml).log steps)).start.get? name).isSome = true := by
          split at hstart
          · exact absurd ‹_› hclear
          · exact absurd ‹_› hreset
          · exact hstart
        rcases List.mem_append.mp hx with hold | hnew
        · exact ih x hold name given hstep hsame
        · rw [List.mem_singleton] at hnew
          subst hnew
          have hs : s = .catalog (.register name given) := hstep
          subst hs
          apply Host.answer_register_of_taken
          rw [holds?_log, holds?]
          cases hget : (ofLog ((Host.fresh yaml).log steps)).start.get? name with
          | none => simp [hget] at hsame
          | some d => rfl

/-! ## Sessions -/

namespace Host

/-- In every session the catalog holds the first registration of a name and overlays the last, and
whatever is refused changes neither. -/
theorem run_registrations (yaml : YamlReader) {steps : List Step}
    (hmake : ∀ s ∈ steps, s.MakesEngines) : Registrations yaml steps where
  first := Era.holds?_log yaml steps
  seeded := Era.refused_of_start
  steady := by
    apply forall_mem_log
    intro h s hregister hclear hreset
    by_cases hcatalog : ∃ c, s = .catalog c
    · obtain ⟨c, rfl⟩ := hcatalog
      cases c with
      | register name given => exact absurd rfl (hregister name given)
      | clear => exact absurd rfl hclear
      | reset => exact absurd rfl hreset
      | _ => rfl
    · exact h.catalog_step fun c hc => hcatalog ⟨c, hc⟩
  last := by
    intro n e name he
    rw [← own?_log hmake, own?, he, Option.bind_some, Overlay.resolve]
    cases Table.get? e.overlay.definitions name <;> rfl
  answered := by
    apply forall_mem_log
    intro h s reply hanswer
    constructor
    · intro name given hs
      obtain rfl : s = _ := hs
      exact registered?_of_answer h hanswer
    · intro engine name given hs
      obtain rfl : s = _ := hs
      exact extended?_of_answer h hanswer
  catalog_form := by
    intro name d hd
    rw [Era.holds?_log] at hd
    exact Era.form_of_holds? hd
  overlay_form := by
    intro e he name d hd
    obtain ⟨n, hn⟩ := List.mem_iff_getElem?.mp he
    have hown : ((fresh yaml).run steps).1.own? n name = some d := by
      rw [own?, hn, Option.bind_some, hd]
    rw [own?_log hmake] at hown
    obtain ⟨x, -, hx⟩ := List.exists_of_findSome?_eq_some hown
    exact Happening.form_of_extended? hx
  refused := by
    apply forall_mem_log
    intro h s hregistration fault hanswer
    rcases hregistration with ⟨name, given, hs⟩ | ⟨engine, name, given, hs⟩
    · obtain rfl : s = _ := hs
      exact step_register_refused h hanswer
    · obtain rfl : s = _ := hs
      exact step_extend_refused h hanswer

/-- A session that registers a fruit twice, which is refused the second time, and gives it to an engine of
its own. -/
def fruitSession : List Step :=
  [.create "form" (Engine.ofRules [] (.text englishLocale) []),
    .catalog (.register "fruit" (.supplied (.predicate (Validator.const (.bool true))))),
    .catalog (.register "fruit" (.supplied (.predicate (Validator.const (.bool false))))),
    .engine "form" (.extend "fruit" (.registered "fruit"))]

/-- The fruit of the catalog is the first one; the overlay has it as its own, not as shared. -/
theorem run_registrations_fruit :
    (∀ s ∈ fruitSession, s.MakesEngines) ∧ Registrations Yaml.reader fruitSession ∧
      (((fresh Yaml.reader).run fruitSession).1.shared.catalog.get? "fruit").map
        (fun d => (d.name, d.shared)) = some ("fruit", true) ∧
      ((((fresh Yaml.reader).run fruitSession).1.engines[0]?).bind fun e =>
        (e.overlay.resolve ((fresh Yaml.reader).run fruitSession).1.shared.catalog "fruit").map
          fun d => (d.name, d.shared)) = some ("fruit", false) := by
  have hmake : ∀ s ∈ fruitSession, s.MakesEngines := by
    simp only [fruitSession, List.forall_mem_cons, Step.MakesEngines]
    exact ⟨⟨_, _, _, rfl⟩, trivial, trivial, trivial, by simp⟩
  exact ⟨hmake, run_registrations _ hmake, by decide, by decide⟩

end Host

end FieldRules
