import FieldRules.Proofs.Engine.Steps

/-!
# The shape of an engine's bag

In every course the bag is made of blocks (`has_shape`): the entries of a field stand together, the
field is declared, and the rules that failed come in the order of the field's rules. What is done to
one field moves no entry of another. The blocks need not stand in the order of the fields, since a
pending validation puts its block at the end; a validation of all fields leaves them in that order.
-/

namespace FieldRules

namespace Engine

/-- The bag lists the declared fields in order, each with all of its entries. -/
def InOrder (e : Engine) : Prop := e.bag.entries = e.fieldNames.flatMap e.bag.entriesOf

/-! ## What a validation does to the bag -/

/-- A validation leaves in the bag what it knows at once, at the end. -/
theorem bag_validate (e : Engine) (shared : Shared) (field : String) (value extra : Value) :
    (e.validate shared field value extra).1.bag =
      ((Latest.ofAsked (e.messages shared field) 0 0
        (e.asked shared field value extra)).entries field).foldl Bag.add (e.bag.remove field) := by
  cases h : e.asked shared field value extra with
  | undeclared =>
      rw [validate_undeclared h]
      rfl
  | refused f =>
      rw [validate_refused h]
      rfl
  | calls cs =>
      by_cases hpending : cs.any RuleCall.isPending = true
      · rw [(validate_pending h hpending).1]
        simp only [Latest.ofAsked, hpending, if_true]
        rfl
      · have hknown : cs.any RuleCall.isPending = false := by simpa using hpending
        rw [(validate_known h hknown).1]
        simp only [Latest.ofAsked, hknown, Bool.false_eq_true, if_false]
        rfl

/-- A validation moves no entry of another field. -/
theorem remove_bag_validate (e : Engine) (shared : Shared) (field : String) (value extra : Value) :
    (e.validate shared field value extra).1.bag.remove field = e.bag.remove field := by
  rw [bag_validate, Bag.remove_foldl_add _ Course.Latest.field_of_mem_entries,
    Bag.remove_remove_self]

/-- The end of a validation moves no entry of another field. -/
theorem remove_bag_finish (e : Engine) (shared : Shared) (p : PendingField) (passed : List Bool) :
    (e.finish shared p passed).1.bag.remove p.field = e.bag.remove p.field := by
  by_cases hgen : e.generation p.field = p.generation
  · rw [finish_current hgen]
    show (List.foldl Bag.add _ _).remove p.field = _
    rw [Bag.remove_foldl_add _ field_of_mem_entriesFor, Bag.remove_remove_self]
  · rw [finish_stale hgen]

/-- The validation of some fields takes their entries out and puts what it knows at once at the end,
field after field. -/
theorem entries_validateEach (shared : Shared) (values : String → Value) {names : List String}
    (hnodup : names.Nodup) (e : Engine) :
    (validateEach shared values e names).1.bag.entries =
      e.bag.entries.filter (fun x => !names.contains x.field) ++
        names.flatMap fun n => (Latest.ofAsked (e.messages shared n) 0 0
          (e.asked shared n (values n) (.list []))).entries n := by
  induction names generalizing e with
  | nil => simp [validateEach]
  | cons n ns ih =>
      obtain ⟨hn, hns⟩ := List.nodup_cons.mp hnodup
      have hsetup := sameSetup_validate e shared n (values n) (.list [])
      rw [(validateEach_cons shared values e n ns).1, ih hns, hsetup.asked, hsetup.messages,
        bag_validate, Bag.entries_foldl_add, List.filter_append, List.flatMap_cons]
      -- The other fields are validated afterwards, which leaves what is known of `n` in place.
      have hold : (e.bag.remove n).entries.filter (fun x => !ns.contains x.field) =
          e.bag.entries.filter (fun x => !(n :: ns).contains x.field) := by
        unfold Bag.remove
        rw [List.filter_filter]
        apply List.filter_congr
        intro x _
        by_cases hx : x.field = n <;> simp [hx]
      have hnew : ∀ l : Latest, (l.entries n).filter (fun x => !ns.contains x.field) =
          l.entries n := by
        intro l
        rw [List.filter_eq_self]
        intro x hx
        rw [Course.Latest.field_of_mem_entries x hx]
        simpa using hn
      rw [hold, hnew, List.append_assoc]

end Engine

namespace Course

/-! ## Blocks -/

/-- Entries are of declared fields only. -/
theorem Tracks.declared {engine : Engine} {latest : String → Latest}
    {live : Nat → Nat → Option PendingField} (h : Tracks engine latest live) :
    ∀ x ∈ engine.bag.entries, x.field ∈ engine.fieldNames := by
  intro x hx
  have hshown : x ∈ (latest x.field).entries x.field := by
    rw [← h.shown x.field]
    exact Bag.mem_entriesOf.mpr ⟨hx, rfl⟩
  have hmade := h.made x.field
  cases hlatest : latest x.field with
  | recorded calls passed message =>
      have hrules := hmade calls (by rw [hlatest]; rfl)
      rw [Engine.fieldNames, ← Table.get?_isSome_iff]
      exact Option.isSome_iff_exists.mpr ⟨_, hrules⟩
  | _ =>
      rw [hlatest] at hshown
      simp [Latest.entries] at hshown

/-- The rules that failed come in the order of the field's rules. -/
theorem Tracks.rules_sublist {engine : Engine} {latest : String → Latest}
    {live : Nat → Nat → Option PendingField} (h : Tracks engine latest live) (f : String) :
    ((engine.bag.entriesOf f).map (·.rule)).Sublist
      ((engine.rulesFor f).map fun r => some r.name) := by
  rw [h.shown f]
  cases hlatest : latest f with
  | recorded calls passed message =>
      have hrules := h.made f calls (by rw [hlatest]; rfl)
      have hsub := entriesFor_rules_sublist f message (h.complete f calls passed message hlatest)
      rw [Engine.rulesFor, hrules, Option.getD_some, List.map_map]
      exact hsub
  | _ => exact List.nil_sublist _

/-- Once sorted the bag lists the declared fields in order. -/
theorem Tracks.inOrder_sortBag {engine : Engine} {latest : String → Latest}
    {live : Nat → Nat → Option PendingField} (h : Tracks engine latest live)
    (hnodup : engine.fieldNames.Nodup) : engine.sortBag.InOrder := by
  have hsame : engine.sortBag.bag.entriesOf = engine.bag.entriesOf := by
    funext f
    exact Bag.entriesOf_sortByFields _ _ f
  unfold Engine.InOrder
  rw [hsame]
  exact Bag.entries_sortByFields_of_listed hnodup h.declared

/-- A block that takes the place of a field's entries stands together, as all others do. -/
theorem inBlocks_replaceEntries {e : Engine} (h : e.bag.InBlocks) {field : String} {es : List Entry}
    (hes : ∀ x ∈ es, x.field = field) : (replaceEntries e field es).bag.InBlocks :=
  (h.remove field).foldl_add (Bag.entriesOf_remove_self _ _) hes

theorem Move.inBlocks {v w : View} (hmove : Move v w) (h : v.Tracks)
    (hnodup : v.engine.fieldNames.Nodup) (hblocks : v.engine.bag.InBlocks) :
    w.engine.bag.InBlocks := by
  cases hmove with
  | attach field rules => exact hblocks.remove field
  | detach field => exact hblocks.remove field
  | skip field new hnew => exact hblocks.remove field
  | wait field calls job part hrules hfree => exact hblocks.remove field
  | judge field calls passed message hrules hlength =>
      have hrenewed : (v.engine.renew field).bag.InBlocks := hblocks.remove field
      exact inBlocks_replaceEntries hrenewed field_of_mem_entriesFor
  | record job part p passed message hlive hlatest hlength =>
      exact inBlocks_replaceEntries hblocks field_of_mem_entriesFor
  | drop job part p hlive hlatest => exact hblocks
  | sort =>
      -- The order of the blocks changes, not the blocks.
      exact Bag.inBlocks_of_eq_flatMap (h.inOrder_sortBag hnodup)
  | retune locale overlay => exact hblocks

theorem Moves.inBlocks {v w : View} (hmoves : Moves v w) (h : v.Tracks)
    (hnodup : v.engine.fieldNames.Nodup) (hblocks : v.engine.bag.InBlocks) :
    w.engine.bag.InBlocks := by
  induction hmoves with
  | refl => exact hblocks
  | tail hbefore hmove ih => exact hmove.inBlocks (h.moves hbefore) (Moves.nodup hbefore hnodup) ih

/-! ## Order -/

theorem Consistent.inOrder_close {c : Course} (h : c.Consistent) {job : Nat}
    (hdone : c.isDone job = true) : (c.step (.close job)).engine.InOrder := by
  rw [step_close_of_done hdone]
  exact h.tracks.inOrder_sortBag h.nodup

/-- A validation of all fields leaves the bag in order even if some answers are awaited. -/
theorem Consistent.inOrder_validateAll {c : Course} (h : c.Consistent) (values : String → Value) :
    (c.step (.validateAll values)).engine.InOrder := by
  have hafter := h.step (.validateAll values)
  cases hany : (Engine.validateEach c.shared values c.engine
      c.engine.fieldNames).2.result.any Engine.isPending with
  | false =>
      have hsorted : (c.step (.validateAll values)).engine =
          (Engine.validateEach c.shared values c.engine c.engine.fieldNames).1.sortBag :=
        (Engine.validateAll_known hany).1
      have hmoves := validateAll_moves c h.nodup values
      rw [hsorted]
      exact (h.tracks.moves hmoves).inOrder_sortBag (Moves.nodup hmoves h.nodup)
  | true =>
      have hengine : (c.step (.validateAll values)).engine =
          (Engine.validateEach c.shared values c.engine c.engine.fieldNames).1 :=
        (Engine.validateAll_pending hany).1
      have hnames : (c.step (.validateAll values)).engine.fieldNames = c.engine.fieldNames := by
        rw [hengine, Engine.fieldNames, (Engine.sameSetup_validateEach _ _ _ _).fields]
        rfl
      have hentries := Engine.entries_validateEach c.shared values h.nodup c.engine
      -- Every old entry is of a declared field, so it was taken out.
      have hold : c.engine.bag.entries.filter (fun x => !c.engine.fieldNames.contains x.field) =
          [] := by
        rw [List.filter_eq_nil_iff]
        intro x hx
        have hdeclared : x.field ∈ c.engine.fieldNames := h.tracks.declared x hx
        simpa using hdeclared
      rw [hold, List.nil_append, ← hengine] at hentries
      unfold Engine.InOrder
      rw [hnames]
      exact Bag.eq_flatMap_entriesOf h.nodup hentries fun n _ => Latest.field_of_mem_entries

/-! ## The shape -/

/-- The field that an event bears on, if it is one. -/
def fieldOf? (c : Course) : Event → Option String
  | .attach field _ => some field
  | .detach field => some field
  | .validate field _ _ => some field
  | .finish job part _ => (c.waiting? job part).map (·.field)
  | _ => none

/-- An event moves no entry of a field that it does not bear on. -/
theorem remove_bag_step (c : Course) {event : Event} {f : String} (h : c.fieldOf? event = some f) :
    (c.step event).engine.bag.remove f = c.engine.bag.remove f := by
  cases event with
  | attach field rules =>
      obtain rfl := Option.some.inj h
      exact Bag.remove_remove_self _ _
  | detach field =>
      obtain rfl := Option.some.inj h
      exact Bag.remove_remove_self _ _
  | validate field value extra =>
      obtain rfl := Option.some.inj h
      exact Engine.remove_bag_validate c.engine c.shared field value extra
  | finish job part delivered =>
      obtain ⟨p, hp, rfl⟩ := Option.map_eq_some_iff.mp h
      simp only [step, hp]
      exact Engine.remove_bag_finish c.engine c.shared p _
  | _ => simp [fieldOf?] at h

/-- The shape of the bag of a course, and what the next event can do to it. -/
structure Shape (c : Course) : Prop where
  /-- Every entry is of a declared field. -/
  declared : ∀ x ∈ c.engine.bag.entries, x.field ∈ c.engine.fieldNames
  /-- The entries of a field stand together. -/
  blocks : c.engine.bag.InBlocks
  /-- The rules named in a field's entries come in the order of the field's rules. -/
  rules : ∀ f, ((c.engine.bag.entriesOf f).map (·.rule)).Sublist
    ((c.engine.rulesFor f).map fun r => some r.name)
  /-- What is done to one field leaves the entries of all others as they are, in the same order. -/
  others : ∀ event f, c.fieldOf? event = some f →
    (c.step event).engine.bag.remove f = c.engine.bag.remove f
  /-- So does each of the validations that the validation of all fields is made of. -/
  others_each : ∀ values before f, (Engine.validateEach c.shared values c.engine
      (before ++ [f])).1.bag.remove f =
    (Engine.validateEach c.shared values c.engine before).1.bag.remove f
  /-- What bears on no field leaves the bag as it is, sorting apart. -/
  still : ∀ event, c.fieldOf? event = none → (∀ values, event ≠ .validateAll values) →
    (∀ job, event ≠ .close job) → (c.step event).engine.bag = c.engine.bag
  /-- A validation of all fields leaves the blocks in the order of the fields. -/
  ordered : ∀ values, (c.step (.validateAll values)).engine.InOrder
  /-- So does its end, when it was pending. -/
  ordered_at_end : ∀ job, c.isDone job = true → (c.step (.close job)).engine.InOrder

theorem Consistent.shape {c : Course} (h : c.Consistent) (hblocks : c.engine.bag.InBlocks) :
    c.Shape where
  declared := h.tracks.declared
  blocks := hblocks
  rules := h.tracks.rules_sublist
  others := fun _ _ hfield => remove_bag_step c hfield
  others_each := by
    intro values before f
    rw [Engine.validateEach_append]
    exact Engine.remove_bag_validate _ c.shared f (values f) (.list [])
  still := by
    intro event hfield hall hclose
    cases event with
    | extend name supplied => rfl
    | setLocale locale => rfl
    | share shared => rfl
    | finish job part delivered =>
        rw [step_finish_of_not_waiting (Option.map_eq_none_iff.mp hfield)]
    | validateAll values => exact absurd rfl (hall values)
    | close job => exact absurd rfl (hclose job)
    | _ => simp [fieldOf?] at hfield
  ordered := h.inOrder_validateAll
  ordered_at_end := fun _ hdone => h.inOrder_close hdone

/-- The bag of every engine has its shape throughout every course. -/
theorem has_shape (shared : Shared) (locale : Key) (attributes : Table String String)
    (events : List Event) : ((fresh shared locale attributes).run events).Shape := by
  have hrun := run_induction (P := fun c => c.Consistent ∧ c.engine.bag.InBlocks)
    (fun c event hc => ⟨hc.1.step event,
      Moves.inBlocks (step_moves hc.1.tracks hc.1.nodup event) hc.1.tracks hc.1.nodup hc.2⟩)
    ⟨consistent_fresh shared locale attributes, Bag.inBlocks_empty⟩ events
  exact hrun.1.shape hrun.2

end Course

end FieldRules
