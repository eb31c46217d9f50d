import FieldRules.Proofs.Engine.Own
import FieldRules.Proofs.Host.Registrations

/-!
# Registered validators are an engine's own

Whatever is registered with an engine, in whatever form it is handed over and were it taken from the
catalog, becomes the engine's own: it is not shared (`shared_of_own`). So a field whose rules were all
registered with its engine is judged without a look at the catalog and the dictionary, and the
registration did not touch these either (`own_validators_shielded`).
-/

namespace FieldRules

namespace Host

/-- No definition in an overlay is shared, however it came there. -/
theorem shared_of_own {yaml : YamlReader} {steps : List Step} (hmake : ∀ s ∈ steps, s.MakesEngines)
    {n : Nat} {e : Engine}
    (he : ((fresh yaml).run steps).1.engines[n]? = some e) {name : String} {d : Definition}
    (hd : Table.get? e.overlay.definitions name = some d) : d.shared = false := by
  have hown : ((fresh yaml).run steps).1.own? n name = some d := by
    rw [own?, he, Option.bind_some, hd]
  -- The session's log has the registration that brought it.
  rw [own?_log hmake] at hown
  obtain ⟨x, -, hx⟩ := List.exists_of_findSome?_eq_some hown
  exact (Happening.form_of_extended? hx).2

theorem ownRules_of_has {yaml : YamlReader} {steps : List Step} (hmake : ∀ s ∈ steps, s.MakesEngines)
    {n : Nat} {e : Engine}
    (he : ((fresh yaml).run steps).1.engines[n]? = some e) {field : String}
    (hnames : ∀ r ∈ e.rulesFor field, e.overlay.has r.name = true) : e.OwnRules field := by
  intro r hr
  obtain ⟨d, hd⟩ := Option.isSome_iff_exists.mp
    (Table.get?_isSome_iff.mpr (Table.has_iff.mp (hnames r hr)))
  exact ⟨d, hd, shared_of_own hmake he hd⟩

/-- Registering with an engine leaves what engines share as it was, whether or not it is refused. -/
theorem shared_step_extend (h : Host) (engine name : String) (given : GivenDefinition) :
    (h.step (.engine engine (.extend name given))).1.shared = h.shared := by
  rcases h.step_engine_cases engine (.extend name given) with hstep | ⟨n, e, -, -, hstep⟩
  · rw [hstep]
  · rw [hstep, shared_engineStep]

/-- In every session, an engine whose rules for a field are all registered with it judges the field the
same whatever the catalog and the dictionary hold, at once or when what was put off has come, and with
the same messages in every locale; and no registration with an engine changes the catalog or the
dictionary. -/
theorem own_validators_shielded {yaml : YamlReader} {steps : List Step}
    (hmake : ∀ s ∈ steps, s.MakesEngines) {n : Nat}
    {e : Engine} (he : ((fresh yaml).run steps).1.engines[n]? = some e) {field : String}
    (hnames : ∀ r ∈ e.rulesFor field, e.overlay.has r.name = true) :
    e.Shielded field ∧ ∀ x ∈ (fresh yaml).log steps, ∀ engine name given,
      x.step = .engine engine (.extend name given) → x.after.shared = x.before.shared := by
  constructor
  · exact (ownRules_of_has hmake he hnames).shielded
  · apply forall_mem_log
    intro h s engine name given hs
    obtain rfl : s = _ := hs
    exact h.shared_step_extend engine name given

/-- A session with an engine that has both validators of a field of its own: one that it took from the
catalog, and one that puts its answer off. -/
def ownSession : List Step :=
  [.create "form" (Engine.ofRules [("age", [⟨"min", ["3"]⟩, ⟨"late", []⟩])] (.text englishLocale) []),
    .engine "form" (.extend "min" (.registered "min")),
    .engine "form" (.extend "late"
      (.supplied (.predicate fun _ _ => { result := .later (.gate "door") })))]

theorem own_validators_shielded_age :
    (∀ s ∈ ownSession, s.MakesEngines) ∧ ∃ e, ((fresh Yaml.reader).run ownSession).1.engines[0]? = some e ∧
      (e.rulesFor "age").map (·.name) = ["min", "late"] ∧
      (∀ r ∈ e.rulesFor "age", e.overlay.has r.name = true) ∧ e.Shielded "age" ∧
      ∀ x ∈ (fresh Yaml.reader).log ownSession, ∀ engine name given,
        x.step = .engine engine (.extend name given) → x.after.shared = x.before.shared := by
  have hmake : ∀ s ∈ ownSession, s.MakesEngines := by
    simp only [ownSession, List.forall_mem_cons, Step.MakesEngines]
    exact ⟨⟨_, _, _, rfl⟩, trivial, trivial, by simp⟩
  have hsession : (((fresh Yaml.reader).run ownSession).1.engines[0]?).any (fun e =>
      (e.rulesFor "age").map (·.name) = ["min", "late"] &&
        (e.rulesFor "age").all fun r => e.overlay.has r.name) = true := by
    decide +kernel
  obtain ⟨e, he, hrules⟩ := (Option.any_eq_true _ _).mp hsession
  rw [Bool.and_eq_true, decide_eq_true_eq, List.all_eq_true] at hrules
  have hshielded := own_validators_shielded hmake he hrules.2
  exact ⟨hmake, e, he, hrules.1, hrules.2, hshielded.1, hshielded.2⟩

end Host

end FieldRules
