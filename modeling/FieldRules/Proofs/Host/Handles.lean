import FieldRules.Proofs.Host.AtRest
import FieldRules.Proofs.Host.Log
import FieldRules.Proofs.Host.Owners

/-!
# Names are handles

A host uses the names of its engines to find them, and for nothing else: whatever is done is done to the
engines in the same way under other names. So any session may be told with a name for each engine that
no other engine ever has, although the host itself gave a name to one engine after the other, or
none at all (`run_labelled`).
-/

namespace FieldRules

variable {label : Nat → String} {h : Host}

/-! ## Names for engines -/

/-- The names of the first engines. -/
def labels (label : Nat → String) : Nat → Table String Nat
  | 0 => []
  | n + 1 => labels label n ++ [(label n, n)]

theorem mem_labels {n : Nat} {e : String × Nat} (he : e ∈ labels label n) :
    e.1 = label e.2 ∧ e.2 < n := by
  induction n with
  | zero => simp [labels] at he
  | succ n ih =>
      rcases List.mem_append.mp he with hold | hnew
      · exact ⟨(ih hold).1, Nat.lt_succ_of_lt (ih hold).2⟩
      · obtain rfl := List.mem_singleton.mp hnew
        exact ⟨rfl, Nat.lt_succ_self _⟩

section Distinct

variable (hlabel : Function.Injective label)
include hlabel

theorem label_not_mem_keys (n : Nat) : label n ∉ Table.keys (labels label n) := by
  intro hmem
  obtain ⟨e, he, hkey⟩ := List.mem_map.mp hmem
  obtain ⟨hname, hlt⟩ := mem_labels he
  have hn : e.2 = n := hlabel (hname.symm.trans hkey)
  omega

/-- A name for the next engine comes last. -/
theorem labels_succ (n : Nat) : Table.put (labels label n) (label n) n = labels label (n + 1) :=
  Table.put_of_not_mem (label_not_mem_keys hlabel n) n

theorem get?_labels (n m : Nat) :
    Table.get? (labels label m) (label n) = if n < m then some n else none := by
  induction m with
  | zero => rfl
  | succ m ih =>
      rw [← labels_succ hlabel, Table.get?_put, ih]
      by_cases hmn : m = n
      · simp [hmn]
      · have hne : label m ≠ label n := fun h => hmn (hlabel h)
        have hlt : n < m + 1 ↔ n < m := by omega
        simp [hne, hlt]

end Distinct

theorem find?_labels (n m : Nat) :
    ((labels label m).find? fun e => e.2 == n) = if n < m then some (label n, n) else none := by
  induction m with
  | zero => rfl
  | succ m ih =>
      rw [labels, List.find?_append, ih]
      by_cases hmn : m = n
      · simp [hmn]
      · have hlt : n < m + 1 ↔ n < m := by omega
        simp only [hlt, List.find?_singleton, beq_iff_eq, hmn, if_false, Option.or_none]

namespace Host

/-- The host with other names. -/
def withNames (h : Host) (names : Table String Nat) : Host := { h with names }

/-- The host with a name for each engine. -/
def labelled (label : Nat → String) (h : Host) : Host := h.withNames (labels label h.engines.length)

theorem number?_labelled (hlabel : Function.Injective label) (h : Host) (n : Nat) :
    (h.labelled label).number? (label n) = if n < h.engines.length then some n else none :=
  get?_labels hlabel n _

/-- An engine has its own name only. -/
theorem name_of_number?_labelled {name : String} {n : Nat}
    (hname : (h.labelled label).number? name = some n) : name = label n :=
  (mem_labels (Table.mem_of_get?_eq_some hname)).1

theorem nameOf?_labelled (h : Host) (n : Nat) :
    (h.labelled label).nameOf? n = if n < h.engines.length then some (label n) else none := by
  show ((labels label h.engines.length).find? fun e => e.2 == n).map (·.1) = _
  rw [find?_labels]
  split <;> rfl

/-! ## What does not look at names -/

section Names

variable (names : Table String Nat)

theorem startJob_withNames (h : Host) (n : Nat) :
    (h.withNames names).startJob n =
      ⟨(h.startJob n).result.withNames names, (h.startJob n).notes⟩ := by
  have hjobs : (h.withNames names).jobs = h.jobs := rfl
  simp only [startJob, hjobs]
  split
  · rfl
  · split <;> rfl

theorem startEach_withNames (h : Host) (numbers : List Nat) :
    (h.withNames names).startEach numbers =
      ((h.startEach numbers).1.withNames names, (h.startEach numbers).2) := by
  induction numbers generalizing h with
  | nil => rfl
  | cons n ns ih =>
      have hjobs : (h.withNames names).jobs = h.jobs := rfl
      simp only [startEach, startJob_withNames, ih, hjobs]
      split <;> rfl

theorem advanceJob_withNames (h : Host) (n : Nat) :
    (h.withNames names).advanceJob n = (h.advanceJob n).withNames names := by
  have hjobs : (h.withNames names).jobs = h.jobs := rfl
  have hengines : (h.withNames names).engines = h.engines := rfl
  simp only [advanceJob, hjobs, hengines]
  split
  · rfl
  · split <;> rfl

theorem advance_withNames (h : Host) (numbers : List Nat) :
    numbers.foldl advanceJob (h.withNames names) =
      (numbers.foldl advanceJob h).withNames names := by
  induction numbers generalizing h with
  | nil => rfl
  | cons n ns ih => rw [List.foldl_cons, advanceJob_withNames, ih, List.foldl_cons]

theorem closeJob_withNames (h : Host) (n : Nat) :
    (h.withNames names).closeJob n = ((h.closeJob n).1.withNames names, (h.closeJob n).2) := by
  have hjobs : (h.withNames names).jobs = h.jobs := rfl
  simp only [closeJob, hjobs]
  split
  · rfl
  · split
    · rfl
    · split <;> rfl

theorem closeJobs_withNames (h : Host) (numbers : List Nat) :
    (h.withNames names).closeJobs numbers =
      ((h.closeJobs numbers).1.withNames names, (h.closeJobs numbers).2) := by
  induction numbers generalizing h with
  | nil => rfl
  | cons n ns ih => simp only [closeJobs, closeJob_withNames, ih]

theorem settle_withNames (h : Host) :
    (h.withNames names).settle = (h.settle.1.withNames names, h.settle.2) := by
  have hstarted : (h.withNames names).started = h.started := rfl
  simp only [settle, hstarted, advance_withNames]
  exact closeJobs_withNames names _ _

theorem engineStep_withNames (h : Host) (n : Nat) (e : Engine) (s : EngineStep) :
    (h.withNames names).engineStep n e s =
      ((h.engineStep n e s).1.withNames names, (h.engineStep n e s).2) := by
  have hshared : (h.withNames names).shared = h.shared := rfl
  cases s with
  | validate field value extra =>
      simp only [engineStep, hshared]
      split <;> rfl
  | validateAll values =>
      simp only [engineStep, hshared]
      split <;> rfl
  | _ => rfl

theorem dictionaryStep_withNames (h : Host) (s : DictionaryStep) :
    (h.withNames names).dictionaryStep s =
      ((h.dictionaryStep s).1.withNames names, (h.dictionaryStep s).2) := by
  have hshared : (h.withNames names).shared = h.shared := rfl
  cases s with
  | get locale name field params =>
      simp only [dictionaryStep, hshared]
      split <;> rfl
  | _ => rfl

theorem withOwner_withNames (h : Host) (registry owner : String) :
    (h.withNames names).withOwner registry owner = (h.withOwner registry owner).withNames names := by
  have hregistry : (h.withNames names).registry registry = h.registry registry := rfl
  simp only [withOwner, hregistry]
  split <;> rfl

end Names

/-! ## Steps under other names -/

end Host

/-- The step with the names of engines. A name that stands for no engine is that of the next one, which
is not there yet. -/
def Step.labelled (label : Nat → String) (h : Host) : Step → Step
  | .create _ e => .create (label h.engines.length) e
  | .engine name s => .engine (label ((h.number? name).getD h.engines.length)) s
  | .owners registry (.register owner _) =>
    .owners registry (.register owner (label (h.engineOfOwner registry owner)))
  | s => s

namespace Host

/-- What the step answers then: the same, but for the name of the engine of an owner. -/
def answerLabelled (label : Nat → String) (h : Host) : Step → Noted (Except Fault Reply)
  | .owners registry (.register owner newName) =>
    let fields := (h.registerOwner registry owner newName).2.2.fieldNames
    silent (.ok (.owned (label (h.engineOfOwner registry owner)) fields))
  | .owners registry (.get owner) =>
    silent (.ok (.owner (((h.registry registry).owners.get? owner).map label)))
  | s => (h.step s).2

/-- The names of engines depend on how many there are. -/
theorem labelled_of_length {h' : Host} (hlength : h'.engines.length = h.engines.length) :
    h'.withNames (labels label h.engines.length) = h'.labelled label := by
  rw [labelled, hlength]

theorem registerOwner_labelled (hlabel : Function.Injective label) (hreg : h.Registered)
    (registry owner newName : String) :
    (h.labelled label).registerOwner registry owner (label (h.engineOfOwner registry owner)) =
      ((h.registerOwner registry owner newName).1.labelled label,
        label (h.engineOfOwner registry owner), (h.registerOwner registry owner newName).2.2) := by
  have hnumber : (h.labelled label).engineOfOwner registry owner = h.engineOfOwner registry owner :=
    rfl
  have hmade : (h.labelled label).withOwner registry owner =
      (h.withOwner registry owner).withNames (labels label h.engines.length) :=
    withOwner_withNames _ h registry owner
  have hafter : (h.registerOwner registry owner newName).1.labelled label =
      (h.withOwner registry owner).labelled label := by
    rw [registerOwner_eq]
    split <;> rfl
  rw [hafter]
  rw [registerOwner_eq, registerOwner_eq, hnumber, hmade, nameOf?_labelled]
  cases howner : (h.registry registry).owners.get? owner with
  | some n =>
      have hn : h.engineOfOwner registry owner = n := by simp [engineOfOwner, howner]
      have hlt := hreg.lt_of_owner howner
      have hlength : (h.withOwner registry owner).engines.length = h.engines.length := by
        simp [withOwner, howner, setOwners]
      rw [hn, if_pos hlt, labelled_of_length hlength]
      rfl
  | none =>
      have hn : h.engineOfOwner registry owner = h.engines.length := by simp [engineOfOwner, howner]
      have hlength : (h.withOwner registry owner).engines.length = h.engines.length + 1 := by
        simp [withOwner, howner, setOwners, addEngine]
      have hnamed : (h.withOwner registry owner).labelled label =
          ((h.withOwner registry owner).withNames (labels label h.engines.length)).giveName
            (label h.engines.length) h.engines.length := by
        rw [labelled, hlength, ← labels_succ hlabel]
        rfl
      rw [hn, if_neg (Nat.lt_irrefl _), hnamed]
      rfl

theorem ownerStep_labelled (hlabel : Function.Injective label) (hreg : h.Registered)
    (registry : String) (s : OwnerStep) :
    (h.labelled label).step ((Step.owners registry s).labelled label h) =
      ((h.ownerStep registry s).1.labelled label, h.answerLabelled label (.owners registry s)) := by
  cases s with
  | register owner newName =>
      simp only [Step.labelled, step, ownerStep, answerLabelled,
        registerOwner_labelled hlabel hreg registry owner newName]
  | get owner =>
      have hregistry : (h.labelled label).registry registry = h.registry registry := rfl
      simp only [Step.labelled, step, ownerStep, answerLabelled, hregistry]
      cases howner : (h.registry registry).owners.get? owner with
      | none => rfl
      | some n =>
          rw [Option.bind_some, nameOf?_labelled, if_pos (hreg.lt_of_owner howner)]
          rfl
  | _ => rfl

/-- A step does to engines what it does to them under other names. -/
theorem step_labelled (hlabel : Function.Injective label) (hreg : h.Registered) (s : Step) :
    (h.labelled label).step (s.labelled label h) =
      ((h.step s).1.labelled label, h.answerLabelled label s) := by
  cases s with
  | create name e =>
      have hnames : Table.put (labels label h.engines.length) (label h.engines.length)
          h.engines.length = labels label (h.step (.create name e)).1.engines.length := by
        have hlength : (h.step (.create name e)).1.engines.length = h.engines.length + 1 := by
          simp [step, addEngine, giveName]
        rw [hlength]
        exact labels_succ hlabel _
      have hafter : (h.labelled label).step (.create (label h.engines.length) e) =
          ((h.step (.create name e)).1.withNames (Table.put (labels label h.engines.length)
            (label h.engines.length) h.engines.length), (h.step (.create name e)).2) := rfl
      rw [Step.labelled, hafter, hnames]
      rfl
  | engine name s =>
      have hengines : (h.labelled label).engines = h.engines := rfl
      cases hn : h.number? name with
      | none =>
          have hnone : (h.labelled label).number? (label h.engines.length) = none := by
            rw [number?_labelled hlabel, if_neg (Nat.lt_irrefl _)]
          simp only [Step.labelled, hn, Option.getD_none, step, hnone, answerLabelled]
      | some n =>
          have hnumber := number?_labelled hlabel h n
          rcases Nat.lt_or_ge n h.engines.length with hlt | hge
          · have he : h.engines[n]? = some h.engines[n] := List.getElem?_eq_getElem hlt
            have hengine : h.engine? name = some h.engines[n] := by
              rw [engine?, hn, Option.bind_some, he]
            rw [if_pos hlt] at hnumber
            have hengine' : (h.labelled label).engine? (label n) = some h.engines[n] := by
              rw [engine?, hnumber, Option.bind_some, hengines, he]
            obtain ⟨e', hset, -⟩ := h.engineStep_engines n s he
            have hlength : (h.engineStep n h.engines[n] s).1.engines.length = h.engines.length := by
              rw [hset, List.length_set]
            simp only [Step.labelled, hn, Option.getD_some, step, hnumber, hengine, hengine',
              answerLabelled]
            rw [labelled, engineStep_withNames, labelled_of_length hlength]
          · have hengine : h.engine? name = none := by
              rw [engine?, hn, Option.bind_some, List.getElem?_eq_none hge]
            rw [if_neg (Nat.not_lt.mpr hge)] at hnumber
            simp only [Step.labelled, hn, Option.getD_some, step, hnumber, hengine, answerLabelled]
  | catalog s => cases s <;> rfl
  | dictionary s =>
      have hlength : (h.dictionaryStep s).1.engines.length = h.engines.length := by
        rw [(h.catalog_dictionaryStep s).2]
      simp only [Step.labelled, step, answerLabelled]
      rw [labelled, dictionaryStep_withNames, labelled_of_length hlength]
  | owners registry s => exact ownerStep_labelled hlabel hreg registry s
  | start jobs =>
      have hlength : (h.startEach jobs).1.settle.1.engines.length = h.engines.length :=
        ((keeps_startEach h jobs).trans (keeps_settle _)).length_engines
      simp only [Step.labelled, step, startJobs, answerLabelled]
      rw [labelled, startEach_withNames]
      simp only [settle_withNames, labelled_of_length hlength]
  | release gate passed =>
      have hlength : (h.openGate gate passed).settle.1.engines.length = h.engines.length :=
        (keeps_settle (h.openGate gate passed)).length_engines
      have hopen : (h.labelled label).openGate gate passed =
          (h.openGate gate passed).withNames (labels label h.engines.length) := rfl
      simp only [Step.labelled, step, answerLabelled, hopen, settle_withNames,
        labelled_of_length hlength]
      rfl
  | setProbe probe => rfl

/-! ## Sessions under other names -/

/-- The steps of a session with a name for each engine. -/
def stepsLabelled (label : Nat → String) (log : List Happening) : List Step :=
  log.map fun x => x.step.labelled label x.before

/-- The answers of a session with a name for each engine. -/
def answersLabelled (label : Nat → String) (log : List Happening) :
    List (Noted (Except Fault Reply)) :=
  log.map fun x => x.before.answerLabelled label x.step

/-- A session does to engines what it does to them under other names. -/
theorem run_labelled (hlabel : Function.Injective label) (hreg : h.Registered) (steps : List Step) :
    (h.labelled label).run (stepsLabelled label (h.log steps)) =
      ((h.run steps).1.labelled label, answersLabelled label (h.log steps)) := by
  induction steps generalizing h with
  | nil => rfl
  | cons s ss ih =>
      have hrest := ih (hreg.step s)
      have hhere := step_labelled hlabel hreg s
      have hsteps : stepsLabelled label (h.log (s :: ss)) =
          s.labelled label h :: stepsLabelled label ((h.step s).1.log ss) := rfl
      rw [hsteps]
      simp only [run, hhere, hrest]
      rfl

/-- All hosts of such a session have a name for each engine. -/
theorem labelled_of_mem_log (hlabel : Function.Injective label) (hreg : h.Registered)
    (steps : List Step) :
    ∀ x ∈ (h.labelled label).log (stepsLabelled label (h.log steps)),
      ∃ before after : Host, x.before = before.labelled label ∧ x.after = after.labelled label := by
  induction steps generalizing h with
  | nil => exact fun x hx => absurd hx List.not_mem_nil
  | cons s ss ih =>
      have hhere : ((h.labelled label).step (s.labelled label h)).1 = (h.step s).1.labelled label :=
        congrArg Prod.fst (step_labelled hlabel hreg s)
      intro x hx
      rcases List.mem_cons.mp hx with rfl | hx
      · exact ⟨h, (h.step s).1, rfl, hhere⟩
      · apply ih (hreg.step s) x
        rw [← hhere]
        exact hx

end Host

end FieldRules
