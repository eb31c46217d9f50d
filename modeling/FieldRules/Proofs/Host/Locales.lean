import FieldRules.Proofs.Dictionary.Locales
import FieldRules.Proofs.Fault
import FieldRules.Proofs.Host.Messages
import FieldRules.Proofs.Host.Registrations
import FieldRules.Yaml.Reader

/-!
# Locales over whole sessions

The locales of a dictionary can be put in order as long as they are texts. Callers name locales by texts,
but the locales of a file are the keys that stand at its top, and those are what YAML takes them for: a
number is a number there, and `no` is a truth value.

So whether the locales of a session are texts is decided by the files that were loaded since the
dictionary was last cleared or put back (`locales_decided`). As soon as one key is no text, asking for
the locales fails.
-/

namespace FieldRules

/-! ## What opens a locale -/

/-- The step loads locale files. -/
def Step.Loads : Step → Prop
  | .dictionary (.loadFile _ _) => True
  | .dictionary (.loadDirectory _ _) => True
  | _ => False

/-- The locales that the caller of a step names are texts. -/
def Step.TextLocales : Step → Prop
  | .dictionary (.update partials) => ∀ l ∈ Table.keys partials, l.IsText
  | .dictionary (.set locale _ _) => locale.IsText
  | .catalog (.register _ (.supplied given)) => ∀ l, given.Gives l → l.IsText
  | _ => True

namespace DictionaryStep

/-- The locale files that a step loads. -/
def files (before : Folder) (s : DictionaryStep) : List Path :=
  match s with
  | .loadFile path _ => [path]
  | .loadDirectory path _ => Dictionary.localeFiles (s.folder before) path
  | _ => []

end DictionaryStep

namespace Happening

/-- The step loads a file that has a property. -/
def LoadsFile (x : Happening) (P : Folder → Path → Prop) : Prop :=
  ∃ s, x.step = .dictionary s ∧
    ∃ path ∈ s.files x.before.folder, P (s.folder x.before.folder) path

end Happening

namespace Edition

theorem nodup_keys_dictionary (log : List Happening) :
    (Table.keys (ofLog log).dictionary.locales).Nodup := by
  apply Dictionary.nodup_keys_writeAll
  rw [start_ofLog]
  exact List.nodup_singleton _

end Edition

namespace Host

/-- What is handed over from the catalog has no messages. -/
theorem not_gives_registered (yaml : YamlReader) (steps : List Step) (name : String) (l : Key) :
    ¬ (((fresh yaml).run steps).1.supplied (.registered name)).Gives l := by
  intro hgives
  cases hget : ((fresh yaml).run steps).1.shared.catalog.get? name with
  | none =>
      simp only [supplied, hget] at hgives
      exact hgives
  | some d =>
      simp only [supplied, hget] at hgives
      rw [Era.holds?_log] at hget
      have hnone := (Era.form_of_holds? hget).2.2
      simp [Supplied.Gives, hnone, Table.keys] at hgives

/-- Steps that do not load write to the locales that their callers named. -/
theorem isText_of_opens {yaml : YamlReader} {steps : List Step} {s : Step} (hs : s.TextLocales)
    (hloads : ¬ s.Loads) {l : Key} (hl : (Happening.of ((fresh yaml).run steps).1 s).Opens l) : l.IsText := by
  obtain ⟨w, hw, rfl⟩ := hl
  cases s with
  | dictionary s =>
      cases s with
      | update partials =>
          obtain ⟨names, hmem, -⟩ := Dictionary.of_mem_writes hw
          exact hs _ (List.mem_map_of_mem hmem)
      | set locale name message =>
          obtain ⟨names, hmem, -⟩ := Dictionary.of_mem_writes hw
          obtain ⟨hlocale, -⟩ := Prod.mk.inj (List.mem_singleton.mp hmem)
          rw [hlocale]
          exact hs
      | loadFile path item => exact absurd trivial hloads
      | loadDirectory path files => exact absurd trivial hloads
      | _ => simp [Happening.writes, Happening.of, DictionaryStep.writes] at hw
  | catalog c =>
      cases c with
      | register name given =>
          have hgives := (Catalog.gives_of_mem_registerWrites hw).1
          cases given with
          | supplied given => exact hs _ hgives
          | registered name' => exact absurd hgives (not_gives_registered yaml steps name' _)
      | _ => simp [Happening.writes, Happening.of] at hw
  | _ => simp [Happening.writes, Happening.of] at hw

/-- What a step that loads writes to is a locale of one of its files. -/
theorem loadsFile_of_opens (h : Host) {s : Step} (hloads : s.Loads) {l : Key}
    (hl : (Happening.of h s).Opens l) :
    (Happening.of h s).LoadsFile fun folder path => LocaleFile.HasLocale folder path l := by
  obtain ⟨w, hw, rfl⟩ := hl
  cases s with
  | dictionary s =>
      cases s with
      | loadFile path item =>
          exact ⟨_, rfl, path, List.mem_singleton_self _, LocaleFile.hasLocale_of_mem hw⟩
      | loadDirectory path files =>
          obtain ⟨file, hfile, hw⟩ := Dictionary.exists_of_mem_directoryWrites hw
          exact ⟨_, rfl, file, hfile, LocaleFile.hasLocale_of_mem hw⟩
      | _ => exact absurd hloads id
  | _ => exact absurd hloads id

/-- A step that loads without a fault loads each of its files without a fault. -/
theorem fileWrites_of_ok (h : Host) {s : DictionaryStep} {r : Reply}
    (hok : (h.step (.dictionary s)).2.result = .ok r) :
    ∀ path ∈ s.files h.folder, (Dictionary.fileWrites (s.folder h.folder) path).2 = .ok () ∧
      ∀ w ∈ (Dictionary.fileWrites (s.folder h.folder) path).1, w ∈ s.writes h.folder := by
  cases s with
  | loadFile path item =>
      have hresult : (h.step (.dictionary (.loadFile path item))).2.result =
          (h.shared.dictionary.loadFile (DictionaryStep.folder h.folder (.loadFile path item)) path).2.map
            fun _ => .nothing := by
        cases item <;> rfl
      rw [hresult, Dictionary.loadFile_eq_writes] at hok
      intro path' hpath'
      obtain rfl := List.mem_singleton.mp hpath'
      obtain ⟨u, hu, -⟩ := map_eq_ok_iff.mp hok
      exact ⟨hu, fun w hw => hw⟩
  | loadDirectory path files =>
      have hresult : (h.step (.dictionary (.loadDirectory path files))).2.result =
          (h.shared.dictionary.loadDirectory
            (DictionaryStep.folder h.folder (.loadDirectory path files)) path).2.map
              fun paths => .texts (paths.map Path.toText) := by
        cases files <;> rfl
      rw [hresult, Dictionary.loadDirectory] at hok
      simp only [DictionaryStep.writes, Dictionary.directoryWrites]
      split at hok
      · rename_i hdirectory
        simp only [Dictionary.loadFiles_eq_writes] at hok
        obtain ⟨paths, hpaths, -⟩ := map_eq_ok_iff.mp hok
        obtain ⟨u, hu, -⟩ := map_eq_ok_iff.mp hpaths
        rw [if_pos hdirectory]
        exact Dictionary.of_filesWrites_ok hu
      · simp [Except.map] at hok
  | _ => intro path hpath; simp [DictionaryStep.files] at hpath

/-- A step that loads without a fault writes to every locale of its files. -/
theorem opens_of_loadsFile (h : Host) {s : Step} {r : Reply} (hok : (h.step s).2.result = .ok r) {l : Key}
    (hl : (Happening.of h s).LoadsFile fun folder path => LocaleFile.HasLocale folder path l) :
    (Happening.of h s).Opens l := by
  obtain ⟨s', hs, path, hpath, hlocale⟩ := hl
  obtain rfl : s = .dictionary s' := hs
  obtain ⟨hfile, hmem⟩ := fileWrites_of_ok h hok path hpath
  exact ⟨_, hmem _ (LocaleFile.opening_mem_of_hasLocale hfile hlocale), rfl⟩

/-! ## Sessions -/

/-- Which locales a session leaves behind, and what becomes of a question for them. -/
structure LocalesDecided (yaml : YamlReader) (steps : List Step) : Prop where
  /-- The locales are texts exactly if those are to which the steps wrote that loaded files since the
  dictionary was last cleared or put back. -/
  texts_iff : (∀ l, ((fresh yaml).run steps).1.shared.dictionary.hasLocale l = true → l.IsText) ↔
    ∀ x ∈ (Edition.ofLog ((fresh yaml).log steps)).since, x.step.Loads → ∀ l, x.Opens l → l.IsText
  /-- Locales that are texts are told, each once and in ascending order. -/
  told : (∀ l, ((fresh yaml).run steps).1.shared.dictionary.hasLocale l = true → l.IsText) →
    ∃ names, (((fresh yaml).run steps).1.step (.dictionary .locales)).2.result = .ok (.texts names) ∧
      ((fresh yaml).run steps).1.shared.dictionary.InOrder names
  /-- If one is no text, the question for them fails. -/
  fails : ∀ l, ((fresh yaml).run steps).1.shared.dictionary.hasLocale l = true → ¬ l.IsText →
    (((fresh yaml).run steps).1.step (.dictionary .locales)).2.result = .error .wrongKind
  /-- What a step that loads files writes to is a locale of one of them; one that is no text is a key at
  the top of the file. -/
  source : ∀ x ∈ (fresh yaml).log steps, x.step.Loads → ∀ l, x.Opens l →
    x.LoadsFile fun folder path => LocaleFile.HasLocale folder path l ∧
      (¬ l.IsText → LocaleFile.HasTopKey folder path l)
  /-- Files that are loaded without a fault make all their locales locales of the dictionary. -/
  loaded : ∀ x ∈ (fresh yaml).log steps, ∀ r, x.answer = .ok r → ∀ l,
    (x.LoadsFile fun folder path => LocaleFile.HasLocale folder path l) → x.Opens l

/-- In a session whose callers name locales by texts, the locales can be told exactly if the files that
were loaded since the dictionary was last cleared or put back have texts for their locales. -/
theorem locales_decided (yaml : YamlReader) {steps : List Step}
    (hcallers : ∀ s ∈ steps, s.TextLocales) : LocalesDecided yaml steps where
  texts_iff := by
    simp only [Edition.dictionary_log, Edition.hasLocale_iff]
    constructor
    · intro htexts x hx _ l hl
      exact htexts l (Or.inr ⟨x, hx, hl⟩)
    · rintro hloaded l (rfl | ⟨x, hx, hl⟩)
      · exact ⟨englishLocale, rfl⟩
      · by_cases hloads : x.step.Loads
        · exact hloaded x hx hloads l hl
        · -- What did not load a file was written to by a caller.
          obtain ⟨before, s, later, hsteps, rfl⟩ :=
            exists_of_mem_log (Edition.mem_log_of_mem_since hx)
          have hs : s.TextLocales := hcallers s (by simp [hsteps])
          exact isText_of_opens hs hloads hl
  told := by
    intro htexts
    have hnodup := Edition.nodup_keys_dictionary ((fresh yaml).log steps)
    rw [← Edition.dictionary_log] at hnodup
    obtain ⟨names, hnames, horder⟩ := Dictionary.sortedLocales_of_texts hnodup htexts
    refine ⟨names, ?_, horder⟩
    simp only [step, dictionaryStep, silent, hnames]
    rfl
  fails := by
    intro l hl hother
    simp only [step, dictionaryStep, silent, Dictionary.sortedLocales_of_not_text hl hother]
    rfl
  source := by
    apply forall_mem_log
    intro h s hloads l hl
    obtain ⟨s', hs, path, hpath, hlocale⟩ := loadsFile_of_opens h hloads hl
    refine ⟨s', hs, path, hpath, hlocale, ?_⟩
    intro hother
    rcases hlocale.text_or_topKey with rfl | htop
    · exact absurd ⟨_, rfl⟩ hother
    · exact htop
  loaded := by
    apply forall_mem_log
    intro h s r hok l hl
    exact opens_of_loadsFile h hok hl

/-- A caller brings a French message and a file brings Arabic ones. -/
def arabicSession : List Step :=
  [.dictionary (.update [(.text "fr", .ok [(.text "alpha", .plain (.text "lettres"))])]),
    .dictionary (.loadFile (.ofText "ar.yaml") (some (.file "alpha: x\n".toUTF8.toList)))]

/-- All three locales are told. -/
theorem locales_decided_arabic :
    (∀ s ∈ arabicSession, s.TextLocales) ∧ LocalesDecided Yaml.reader arabicSession ∧
      ((fresh Yaml.reader).run arabicSession).1.shared.dictionary.sortedLocales.toOption =
        some ["ar", "en", "fr"] := by
  have hcallers : ∀ s ∈ arabicSession, s.TextLocales := by
    simp [arabicSession, Step.TextLocales, Table.keys, Key.IsText]
  have hkeys : Table.keys ((fresh Yaml.reader).run arabicSession).1.shared.dictionary.locales =
      ["en", "fr", "ar"].map .text := by decide +kernel
  refine ⟨hcallers, locales_decided Yaml.reader hcallers, ?_⟩
  rw [Dictionary.sortedLocales, Dictionary.mapM_textKey?_eq_some.mpr hkeys]
  cbv

/-- A file with the messages of a locale whose name YAML takes for a truth value is loaded. -/
def nordicSession : List Step :=
  [.dictionary (.loadFile (.ofText "nordic.yaml") (some (.file "no:\n  required: x\n".toUTF8.toList)))]

/-- No caller names anything but a text, and yet one locale is no text and the locales cannot be told. -/
theorem locales_nordic_fail :
    (∀ s ∈ nordicSession, s.TextLocales) ∧
      ((fresh Yaml.reader).run nordicSession).1.shared.dictionary.hasLocale (.whole 0) = true ∧
      ¬ (Key.whole 0).IsText ∧
      (((fresh Yaml.reader).run nordicSession).1.step (.dictionary .locales)).2.result =
        .error .wrongKind := by
  have hlocale : ((fresh Yaml.reader).run nordicSession).1.shared.dictionary.hasLocale (.whole 0) = true := by
    decide +kernel
  have hother : ¬ (Key.whole 0).IsText := by
    rintro ⟨s, hs⟩
    simp at hs
  refine ⟨?_, hlocale, hother, ?_⟩
  · simp [nordicSession, Step.TextLocales]
  · simp only [step, dictionaryStep, silent, Dictionary.sortedLocales_of_not_text hlocale hother]
    rfl

end Host

end FieldRules
