import FieldRules.Proofs.Catalog.Register
import FieldRules.Proofs.Host.Frame
import FieldRules.Proofs.Host.Log
import FieldRules.Proofs.LocaleFile

/-!
# Messages over whole sessions

The dictionary of a host changes in two ways. Clearing it and putting it back begin a new edition; every
other step writes to it, one leaf or locale after the other, and most steps write nothing
(`dictionary_step`). So the dictionary at any moment is what its edition began with and what the steps
since then wrote, in order (`dictionary_log`), and that holds whether or not the steps failed.

Writing takes nothing away. So within an edition no message is lost, and a message changes only in a step
that was given one for this very locale and name; and English, with which every edition begins, is always
there (`messages_kept`).
-/

namespace FieldRules

/-! ## What a step writes -/

namespace Catalog

variable {c : Catalog} {name : String} {supplied : Supplied}

/-- What a registration writes into the dictionary, whether or not it comes to an end. -/
def registerWrites (c : Catalog) (name : String) (supplied : Supplied) : List Dictionary.Write :=
  if c.has name then []
  else match Definition.normalize name supplied with
    | .error _ => []
    | .ok d => (Dictionary.writes (messageLeaves d)).1

theorem dictionary_register (c : Catalog) (dictionary : Dictionary) (name : String)
    (supplied : Supplied) :
    (c.register dictionary name supplied).2.1 =
      dictionary.writeAll (c.registerWrites name supplied) := by
  unfold registerWrites
  rcases register_cases c dictionary name supplied with
    ⟨htaken, hr⟩ | ⟨e, hfree, hd, hr⟩ | ⟨d, flaw, hfree, hd, -, hr⟩ | ⟨d, hfree, hd, hr⟩
  · rw [hr, if_pos htaken]
    rfl
  · rw [hr, if_neg (by simp [hfree]), hd]
    rfl
  · rw [hr, if_neg (by simp [hfree]), hd]
  · rw [hr, if_neg (by simp [hfree]), hd]

/-- A registration writes only messages of what is registered, under its name. -/
theorem gives_of_mem_registerWrites {w : Dictionary.Write} (h : w ∈ c.registerWrites name supplied) :
    supplied.Gives w.locale ∧ ∀ l n f, w = .leaf l n f → n = .text name := by
  unfold registerWrites at h
  split at h
  · simp at h
  · cases hd : Definition.normalize name supplied with
    | error e => simp [hd] at h
    | ok d =>
        simp only [hd] at h
        obtain ⟨names, hmem, hnames⟩ := Dictionary.of_mem_writes h
        obtain ⟨e, he, hpair⟩ := List.mem_map.mp hmem
        obtain ⟨hlocale, hleaf⟩ := Prod.mk.inj hpair
        constructor
        · apply Definition.gives_of_mem_normalize hd
          rw [← hlocale]
          exact List.mem_map_of_mem he
        · intro l n f hw
          obtain ⟨m, hn, -⟩ := hnames l n f hw
          rw [Except.ok.injEq] at hleaf
          rw [← hleaf, Definition.name_normalize hd] at hn
          exact (Prod.mk.inj (List.mem_singleton.mp hn)).1

end Catalog

namespace DictionaryStep

/-- The folder as a step finds it, with the files that the step itself puts there. -/
def folder (before : Folder) : DictionaryStep → Folder
  | .loadFile path (some item) => before.put path item
  | .loadDirectory path (some files) => before.putAll path files
  | _ => before

/-- What a step of the dictionary writes. -/
def writes (before : Folder) (s : DictionaryStep) : List Dictionary.Write :=
  match s with
  | .update partials => (Dictionary.writes partials).1
  | .set locale name message => (Dictionary.writes [(locale, .ok [(name, message)])]).1
  | .loadFile path _ => (Dictionary.fileWrites (s.folder before) path).1
  | .loadDirectory path _ => Dictionary.directoryWrites (s.folder before) path
  | _ => []

/-- A step of the dictionary is given a message for a locale and a name, by the caller or in a file. -/
def Names (before : Folder) (s : DictionaryStep) (locale name : Key) : Prop :=
  match s with
  | .update partials => Dictionary.Gives partials locale name
  | .set l n _ => l = locale ∧ n = name
  | .loadFile path _ => Dictionary.FileGives (s.folder before) path locale name
  | .loadDirectory path _ => ∃ file ∈ Dictionary.localeFiles (s.folder before) path,
      Dictionary.FileGives (s.folder before) file locale name
  | _ => False

theorem names_of_leaf_mem {before : Folder} {s : DictionaryStep} {l n : Key} {f : MessageFn}
    (h : .leaf l n f ∈ s.writes before) : s.Names before l n := by
  cases s with
  | update partials => exact Dictionary.gives_of_leaf_mem h
  | set locale name message =>
      obtain ⟨names, hmem, hn⟩ := Dictionary.gives_of_leaf_mem h
      obtain ⟨rfl, hnames⟩ := Prod.mk.inj (List.mem_singleton.mp hmem)
      rw [Except.ok.injEq] at hnames
      rw [hnames] at hn
      exact ⟨rfl, (List.mem_singleton.mp hn).symm⟩
  | loadFile path item => exact Dictionary.fileGives_of_leaf_mem h
  | loadDirectory path files =>
      obtain ⟨file, hfile, hw⟩ := Dictionary.exists_of_mem_directoryWrites h
      exact ⟨file, hfile, Dictionary.fileGives_of_leaf_mem hw⟩
  | _ => simp [writes] at h

end DictionaryStep

/-- The step clears the dictionary or puts it back. -/
def Step.Clears (s : Step) : Prop := s = .dictionary .clear ∨ s = .dictionary .reset

namespace Happening

/-- What a step writes into the dictionary. -/
def writes (x : Happening) : List Dictionary.Write :=
  match x.step with
  | .dictionary s => s.writes x.before.folder
  | .catalog (.register name given) =>
    x.before.shared.catalog.registerWrites name (x.before.supplied given)
  | _ => []

/-- The step writes to a locale. -/
def Opens (x : Happening) (l : Key) : Prop := ∃ w ∈ x.writes, w.locale = l

/-- The step is given a message for a locale and the name of a validator. -/
def Names (x : Happening) (locale name : Key) : Prop :=
  match x.step with
  | .dictionary s => s.Names x.before.folder locale name
  | .catalog (.register n given) => .text n = name ∧ (x.before.supplied given).Gives locale
  | _ => False

theorem names_of_leaf_mem {x : Happening} {l n : Key} {f : MessageFn} (h : .leaf l n f ∈ x.writes) :
    x.Names l n := by
  obtain ⟨before, s, answer⟩ := x
  simp only [writes] at h
  split at h
  · exact DictionaryStep.names_of_leaf_mem h
  · obtain ⟨hlocale, hname⟩ := Catalog.gives_of_mem_registerWrites h
    exact ⟨(hname l n f rfl).symm, hlocale⟩
  · simp at h

end Happening

namespace Host

/-- Unless it clears the dictionary or puts it back, a step writes to it at most. -/
theorem dictionary_step (h : Host) {s : Step} (hs : ¬ s.Clears) :
    (h.step s).1.shared.dictionary = h.shared.dictionary.writeAll (Happening.of h s).writes := by
  cases s with
  | create name e => rfl
  | engine name s =>
      rcases h.step_engine_cases name s with hstep | ⟨n, e, -, -, hstep⟩
      · rw [hstep]
        rfl
      · rw [hstep, shared_engineStep]
        rfl
  | catalog c =>
      cases c with
      | register name given => exact Catalog.dictionary_register _ _ _ _
      | _ => rfl
  | dictionary s =>
      cases s with
      | update partials => exact congrArg Prod.fst (Dictionary.update_eq_writes _ partials)
      | set locale name message => exact congrArg Prod.fst (Dictionary.update_eq_writes _ _)
      | get locale name field params =>
          simp only [step, dictionaryStep]
          split <;> rfl
      | clear => exact absurd (Or.inl rfl) hs
      | reset => exact absurd (Or.inr rfl) hs
      | loadFile path item =>
          cases item <;> exact congrArg Prod.fst (Dictionary.loadFile_eq_writes _ _ path)
      | loadDirectory path files =>
          cases files <;> exact Dictionary.loadDirectory_eq_writes _ _ path
      | _ => rfl
  | owners registry s => exact congrArg Shared.dictionary (h.ownerStep_engines registry s).1
  | start jobs =>
      have hstarted := (keeps_startEach h jobs).trans (keeps_settle _)
      exact congrArg Shared.dictionary hstarted.shared
  | release gate passed =>
      exact congrArg Shared.dictionary (keeps_settle (h.openGate gate passed)).shared
  | setProbe probe => rfl

end Host

/-! ## Editions -/

/-- The dictionary as it was last cleared or put back, and what happened since. -/
structure Edition where
  start : Dictionary := Dictionary.bundled
  since : List Happening := []

namespace Edition

/-- Clearing the dictionary and putting it back begin a new edition. -/
def next (edition : Edition) (x : Happening) : Edition :=
  match x.step with
  | .dictionary .clear => { start := Dictionary.cleared }
  | .dictionary .reset => {}
  | _ => { edition with since := edition.since ++ [x] }

/-- The edition that a log ends in. -/
def ofLog (log : List Happening) : Edition := log.foldl next {}

/-- What an edition has come to. -/
def dictionary (edition : Edition) : Dictionary :=
  edition.start.writeAll (edition.since.flatMap Happening.writes)

@[simp] theorem ofLog_concat (log : List Happening) (x : Happening) :
    ofLog (log ++ [x]) = (ofLog log).next x := by
  simp [ofLog]

theorem next_of_not_clears (edition : Edition) {x : Happening} (hx : ¬ x.step.Clears) :
    edition.next x = { edition with since := edition.since ++ [x] } := by
  unfold next
  split
  · rename_i hstep
    exact absurd (Or.inl hstep) hx
  · rename_i hstep
    exact absurd (Or.inr hstep) hx
  · rfl

/-- Every edition begins with the English locale alone. -/
theorem start_ofLog (log : List Happening) :
    Table.keys (ofLog log).start.locales = [.text englishLocale] := by
  induction log using List.reverseRecOn with
  | nil => rfl
  | append_singleton log x ih =>
      rw [ofLog_concat, next]
      split
      · rfl
      · rfl
      · exact ih

/-- The log of a session tells what its dictionary holds. -/
theorem dictionary_log (yaml : YamlReader) (steps : List Step) :
    ((Host.fresh yaml).run steps).1.shared.dictionary = (ofLog ((Host.fresh yaml).log steps)).dictionary := by
  induction steps using List.reverseRecOn with
  | nil => rfl
  | append_singleton steps s ih =>
      rw [Host.run_concat, Host.log_concat, ofLog_concat]
      by_cases hs : s.Clears
      · rcases hs with rfl | rfl
        · rfl
        · rfl
      · have hx : ¬ (Happening.of ((Host.fresh yaml).run steps).1 s).step.Clears := hs
        rw [next_of_not_clears _ hx, Host.dictionary_step _ hs, ih, dictionary, dictionary,
          List.flatMap_append, Dictionary.writeAll_append, List.flatMap_singleton]

/-- A locale is English, with which the edition began, or something was written to it since. -/
theorem hasLocale_iff (log : List Happening) (l : Key) :
    (ofLog log).dictionary.hasLocale l = true ↔
      l = .text englishLocale ∨ ∃ x ∈ (ofLog log).since, x.Opens l := by
  rw [dictionary, Dictionary.hasLocale_writeAll, Bool.or_eq_true, Dictionary.hasLocale_iff_mem_keys,
    start_ofLog, List.mem_singleton, List.any_eq_true]
  simp only [decide_eq_true_eq, List.mem_flatMap, Happening.Opens]
  constructor
  · rintro (hstart | ⟨w, ⟨x, hx, hw⟩, hl⟩)
    · exact Or.inl hstart
    · exact Or.inr ⟨x, hx, w, hw, hl⟩
  · rintro (hstart | ⟨x, hx, w, hw, hl⟩)
    · exact Or.inl hstart
    · exact Or.inr ⟨w, ⟨x, hx, hw⟩, hl⟩

theorem mem_log_of_mem_since {log : List Happening} {x : Happening} (hx : x ∈ (ofLog log).since) :
    x ∈ log := by
  induction log using List.reverseRecOn with
  | nil => simp [ofLog] at hx
  | append_singleton log y ih =>
      rw [ofLog_concat, next] at hx
      split at hx
      · simp at hx
      · simp at hx
      · rw [List.mem_append] at hx ⊢
        rcases hx with hold | hnew
        · exact Or.inl (ih hold)
        · exact Or.inr hnew

end Edition

/-! ## Sessions -/

namespace Host

/-- Until the dictionary is cleared or put back, no message is lost. -/
theorem isSome_get?_run (h : Host) {steps : List Step} (hsteps : ∀ s ∈ steps, ¬ s.Clears)
    {locale name : Key} (hthere : (h.shared.dictionary.get? locale name).isSome = true) :
    ((h.run steps).1.shared.dictionary.get? locale name).isSome = true := by
  induction steps generalizing h with
  | nil => exact hthere
  | cons s steps ih =>
      obtain ⟨hs, hrest⟩ := List.forall_mem_cons.mp hsteps
      apply ih (h.step s).1 hrest
      rw [dictionary_step h hs]
      exact Dictionary.isSome_get?_writeAll hthere _

/-- A message that a step was not given is the same after it. -/
theorem get?_step_of_not_names (h : Host) {s : Step} (hs : ¬ s.Clears) {locale name : Key}
    (hnames : ¬ (Happening.of h s).Names locale name) :
    (h.step s).1.shared.dictionary.get? locale name = h.shared.dictionary.get? locale name := by
  rw [dictionary_step h hs]
  apply Dictionary.get?_writeAll_of_not_mem
  intro f hf
  exact hnames (Happening.names_of_leaf_mem hf)

/-- What becomes of messages in a session. -/
structure MessagesKept (yaml : YamlReader) (steps : List Step) : Prop where
  /-- English is a locale. -/
  english : ((fresh yaml).run steps).1.shared.dictionary.hasLocale (.text englishLocale) = true
  /-- A message that was there at some moment is there, unless the dictionary was cleared or put back
  since. -/
  stays : ∀ before later, steps = before ++ later → (∀ s ∈ later, ¬ s.Clears) → ∀ locale name,
    (((fresh yaml).run before).1.shared.dictionary.get? locale name).isSome = true →
      (((fresh yaml).run steps).1.shared.dictionary.get? locale name).isSome = true
  /-- Unless it clears the dictionary or puts it back, a step changes a message only if it was given one
  for this very locale and name. -/
  changed : ∀ x ∈ (fresh yaml).log steps, ¬ x.step.Clears → ∀ locale name,
    x.after.shared.dictionary.get? locale name ≠ x.before.shared.dictionary.get? locale name →
      x.Names locale name
  /-- What is put back is the bundled dictionary, whatever there was before. -/
  reset : ∀ x ∈ (fresh yaml).log steps, x.step = .dictionary .reset →
    x.after.shared.dictionary = Dictionary.bundled
  /-- The bundled dictionary is a cleared one into which the bundled messages were merged. -/
  bundled : ∀ stem, Dictionary.cleared.update
    (LocaleFile.messages stem Dictionary.bundledDocument) = (Dictionary.bundled, .ok ())

/-- In every session English is always a locale, no message is lost, and a message changes only in a step
that names its locale and its validator. -/
theorem messages_kept (yaml : YamlReader) (steps : List Step) : MessagesKept yaml steps where
  english := by
    rw [Edition.dictionary_log, Edition.hasLocale_iff]
    exact Or.inl rfl
  stays := by
    rintro before later rfl hlater locale name hthere
    rw [run_append]
    exact isSome_get?_run _ hlater hthere
  changed := by
    apply forall_mem_log
    intro h s hs locale name hchanged
    by_contra hnames
    exact hchanged (get?_step_of_not_names h hs hnames)
  reset := by
    apply forall_mem_log
    intro h s hs
    obtain rfl : s = .dictionary .reset := hs
    rfl
  bundled := Dictionary.update_cleared

end Host

end FieldRules
