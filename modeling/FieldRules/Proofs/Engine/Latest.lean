import FieldRules.Proofs.Engine.Steps

/-!
# The latest step wins

In every course of every engine the bag shows, for each field, what its latest step left there
(`latest_wins`). Validations may be pending in any number and end in any order: one that is not the
latest step of its field is told its result and changes nothing else, whatever happened to the field
in between.
-/

namespace FieldRules

namespace Course

/-- The bag follows the latest steps. -/
structure LatestWins (c : Course) : Prop where
  /-- A field has no entries unless its latest step is a validation that was recorded; then it has
  one for each call that failed, in the order of the calls, with the name of the rule and the message
  made when the validation was recorded. -/
  shown : ∀ f, c.engine.bag.entriesOf f = (c.latest f).entries f
  /-- The calls of that validation are those of the field's rules, each once and in order. -/
  called : ∀ f calls, (c.latest f).calls? = some calls →
    c.engine.rules? f = some (calls.map (·.rule))
  /-- Every call of a validation that was recorded has its result. -/
  complete : ∀ f calls passed message, c.latest f = .recorded calls passed message →
    passed.length = calls.length
  /-- A latest step that is pending is a validation of the field that still waits. -/
  waiting : ∀ f job part calls, c.latest f = .pending job part calls →
    ∃ p, c.waiting? job part = some p ∧ p.field = f ∧ p.calls = calls
  /-- A pending validation that is not the latest step of its field leaves the engine as it is when
  it ends. -/
  superseded : ∀ job part p delivered, c.waiting? job part = some p →
    c.latest p.field ≠ .pending job part p.calls →
    (c.step (.finish job part delivered)).engine = c.engine
  /-- Every pending validation, the latest or not, is told at its end whether all its own calls
  passed. -/
  told : ∀ job part p delivered, c.waiting? job part = some p →
    (c.step (.finish job part delivered)).part? job part =
      some (.ended ((resultsOf delivered p.calls).all id))
  /-- A validation that is not pending is told the same at once. -/
  told_at_once : ∀ f value extra calls, c.engine.asked c.shared f value extra = .calls calls →
    calls.any RuleCall.isPending = false →
    (c.engine.validate c.shared f value extra).2.result =
      .ok (.known ((settledResults calls).all id))

theorem Consistent.latestWins {c : Course} (h : c.Consistent) : c.LatestWins where
  shown := h.tracks.shown
  called := h.tracks.made
  complete := h.tracks.complete
  waiting := by
    intro f job part calls hlatest
    obtain ⟨p, hp, hfield, -, hcalls⟩ := h.tracks.current f job part calls hlatest
    exact ⟨p, hp, hfield, hcalls⟩
  superseded := by
    intro job part p delivered hp hlatest
    rw [step_finish_older h.tracks hp hlatest]
  told := by
    intro job part p delivered hp
    obtain ⟨old, hold, -⟩ := Option.bind_eq_some_iff.mp hp
    have hpart := part?_setPart_self hold (.ended ((resultsOf delivered p.calls).all id))
    by_cases hlatest : c.latest p.field = .pending job part p.calls
    · rw [step_finish_latest h.tracks hp hlatest]
      exact hpart
    · rw [step_finish_older h.tracks hp hlatest]
      exact hpart
  told_at_once := by
    intro f value extra calls hasked hknown
    exact (Engine.validate_known hasked hknown).2

/-- In every course of every engine the latest step of each field wins. -/
theorem latest_wins (shared : Shared) (locale : Key) (attributes : Table String String)
    (events : List Event) : ((fresh shared locale attributes).run events).LatestWins :=
  ((consistent_fresh shared locale attributes).run events).latestWins

end Course

end FieldRules
