import FieldRules.Proofs.Folder
import FieldRules.Proofs.LocaleFile.Shapes

/-!
# The locale files of a directory

A directory is loaded file by file, in ascending order of the names that end in one of the two
extensions. In what order the directory lists its entries makes no difference (`loaded_by_name`): the
names are sorted first, and no two of them are the same. Of the files that have a template for a locale
and a name the last one counts, be it of the one shape or of the other (`MergesFiles`). A file that fails
ends the loading, after all those before it have been merged.
-/

namespace FieldRules

namespace LocaleFile

/-! ## What files have -/

/-- A file can be loaded, whatever has been loaded before. -/
def Loads (folder : Folder) (path : Path) : Prop := ∀ d : Dictionary, (d.loadFile folder path).2 = .ok ()

/-- A file has a template for a locale and a name, in one of the two shapes. -/
def Provides (folder : Folder) (path : Path) (l n : Key) (t : String) : Prop :=
  ∃ bytes es, folder.bytes? path = some bytes ∧ document folder.yaml path bytes = .ok (.dict es) ∧
    HasTemplate path.stem es l n t

/-- A file has a locale, perhaps without names. -/
def Opens (folder : Folder) (path : Path) (l : Key) : Prop :=
  ∃ bytes es, folder.bytes? path = some bytes ∧ document folder.yaml path bytes = .ok (.dict es) ∧
    OpensLocale path.stem es l

/-- What a file has is merged, and nothing else changes. -/
structure MergesFile (d d' : Dictionary) (folder : Folder) (path : Path) : Prop where
  given : ∀ l n t, Provides folder path l n t → d'.get? l n = some (templateMessage t)
  kept : ∀ l n, (∀ t, ¬ Provides folder path l n t) → d'.get? l n = d.get? l n
  locales : ∀ l, d'.hasLocale l = true ↔ d.hasLocale l = true ∨ Opens folder path l

/-- Files are merged one after the other: of those that have a template for a locale and a name, the last
one counts. -/
structure MergesFiles (d d' : Dictionary) (folder : Folder) (paths : List Path) : Prop where
  given : ∀ before path after l n t, paths = before ++ path :: after → Provides folder path l n t →
    (∀ later ∈ after, ∀ t', ¬ Provides folder later l n t') → d'.get? l n = some (templateMessage t)
  kept : ∀ l n, (∀ path ∈ paths, ∀ t, ¬ Provides folder path l n t) → d'.get? l n = d.get? l n
  locales : ∀ l, d'.hasLocale l = true ↔ d.hasLocale l = true ∨ ∃ path ∈ paths, Opens folder path l

variable {d d' d'' : Dictionary} {folder folder' : Folder} {directory path : Path}
  {paths before after : List Path}

/-! ## One file -/

theorem loadFile_result (d : Dictionary) (folder : Folder) (path : Path) :
    (d.loadFile folder path).2 = (Dictionary.fileWrites folder path).2 := by
  rw [Dictionary.loadFile_eq_writes]

/-- Whether a file can be loaded does not depend on what has been loaded before. -/
theorem loads_iff (d : Dictionary) : Loads folder path ↔ (d.loadFile folder path).2 = .ok () := by
  constructor
  · intro h
    exact h d
  · intro h d'
    rw [loadFile_result] at h ⊢
    exact h

/-- A file that can be loaded holds a document that can be read. -/
theorem Loads.exists_document (h : Loads folder path) :
    ∃ bytes v, folder.bytes? path = some bytes ∧ document folder.yaml path bytes = .ok v := by
  have hresult := h Dictionary.cleared
  unfold Dictionary.loadFile read at hresult
  cases hbytes : folder.bytes? path with
  | none => simp [hbytes] at hresult
  | some bytes =>
      cases hread : document folder.yaml path bytes with
      | error f => simp [hbytes, hread, bind, Except.bind] at hresult
      | ok v => exact ⟨bytes, v, rfl, hread⟩

/-- What a file has is what stands in its document. -/
theorem eq_dict_of_document {bytes bytes' : Bytes} {v : Value} {es : List (Value × Value)}
    (hbytes : folder.bytes? path = some bytes) (hread : document folder.yaml path bytes = .ok v)
    (hbytes' : folder.bytes? path = some bytes')
    (hread' : document folder.yaml path bytes' = .ok (.dict es)) :
    v = .dict es := by
  obtain rfl : bytes = bytes' := Option.some.inj (hbytes.symm.trans hbytes')
  exact Except.ok.inj (hread.symm.trans hread')

/-- Loading a file that can be loaded merges what it has. -/
theorem Loads.mergesFile (h : Loads folder path) (d : Dictionary) :
    MergesFile d (d.loadFile folder path).1 folder path := by
  obtain ⟨bytes, v, hbytes, hread⟩ := h.exists_document
  by_cases hdict : ∃ es, v = .dict es
  · obtain ⟨es, rfl⟩ := hdict
    have hshape : ByLocale es ∨ ByName es := by
      rcases (accepted_iff d hbytes hread).mp (h d) with hdocumented | hfalse
      · exact documented_dict_iff.mp hdocumented
      · exact documented_dict_iff.mp (documented_of_dict_false hfalse)
    obtain ⟨hgiven, hkept, hlocales⟩ := mergesTemplates d path.stem (keyed_of_document hread) hshape
    rw [loadFile_of_mapping hbytes hread]
    constructor
    · rintro l n t ⟨bytes', es', hbytes', hread', htemplate⟩
      obtain rfl := Value.dict.inj (eq_dict_of_document hbytes hread hbytes' hread')
      exact hgiven l n t htemplate
    · intro l n hnone
      apply hkept
      intro t htemplate
      exact hnone t ⟨bytes, es, hbytes, hread, htemplate⟩
    · intro l
      rw [hlocales]
      apply or_congr_right
      constructor
      · intro hopens
        exact ⟨bytes, es, hbytes, hread, hopens⟩
      · rintro ⟨bytes', es', hbytes', hread', hopens⟩
        obtain rfl := Value.dict.inj (eq_dict_of_document hbytes hread hbytes' hread')
        exact hopens
  · -- Such a file has nothing, and nothing is merged.
    rw [loadFile_unchanged d hbytes hread fun es hes => hdict ⟨es, hes⟩]
    constructor
    · rintro l n t ⟨bytes', es, hbytes', hread', -⟩
      exact absurd ⟨es, eq_dict_of_document hbytes hread hbytes' hread'⟩ hdict
    · intro l n _
      rfl
    · intro l
      constructor
      · exact Or.inl
      · rintro (hold | ⟨bytes', es, hbytes', hread', -⟩)
        · exact hold
        · exact absurd ⟨es, eq_dict_of_document hbytes hread hbytes' hread'⟩ hdict

/-! ## One file after the other -/

theorem mergesFiles_nil (d : Dictionary) (folder : Folder) : MergesFiles d d folder [] where
  given := by
    intro before path after l n t hpaths
    simp at hpaths
  kept := by
    intro l n _
    rfl
  locales := by simp

theorem MergesFile.cons (hhere : MergesFile d d' folder path) (hlater : MergesFiles d' d'' folder paths) :
    MergesFiles d d'' folder (path :: paths) where
  given := by
    intro before path' after l n t hpaths hprovides hnone
    cases before with
    | nil =>
        obtain ⟨rfl, rfl⟩ := List.cons.inj hpaths
        rw [hlater.kept l n hnone, hhere.given l n t hprovides]
    | cons first before =>
        obtain ⟨rfl, rfl⟩ := List.cons.inj hpaths
        exact hlater.given before path' after l n t rfl hprovides hnone
  kept := by
    intro l n hnone
    rw [hlater.kept l n fun later hlater => hnone later (List.mem_cons_of_mem _ hlater),
      hhere.kept l n (hnone path List.mem_cons_self)]
  locales := by
    intro l
    rw [hlater.locales, hhere.locales, or_assoc]
    simp

theorem loadFiles_cons_of_loads (d : Dictionary) (h : Loads folder path) (paths : List Path) :
    d.loadFiles folder (path :: paths) = (d.loadFile folder path).1.loadFiles folder paths := by
  have hresult := h d
  rw [Dictionary.loadFiles]
  split
  · rename_i hfails
    simp [hfails] at hresult
  · rename_i hloads
    rw [hloads]

theorem loadFiles_append_of_loads (d : Dictionary) (h : ∀ path ∈ before, Loads folder path)
    (paths : List Path) :
    d.loadFiles folder (before ++ paths) = (d.loadFiles folder before).1.loadFiles folder paths := by
  induction before generalizing d with
  | nil => rfl
  | cons path rest ih =>
      obtain ⟨hhere, hrest⟩ := List.forall_mem_cons.mp h
      rw [List.cons_append, loadFiles_cons_of_loads d hhere, loadFiles_cons_of_loads d hhere, ih _ hrest]

/-- Files that can all be loaded are all merged. -/
theorem loadFiles_of_loads (d : Dictionary) (h : ∀ path ∈ paths, Loads folder path) :
    (d.loadFiles folder paths).2 = .ok () ∧ MergesFiles d (d.loadFiles folder paths).1 folder paths := by
  induction paths generalizing d with
  | nil => exact ⟨rfl, mergesFiles_nil d folder⟩
  | cons path rest ih =>
      obtain ⟨hhere, hrest⟩ := List.forall_mem_cons.mp h
      obtain ⟨hok, hmerges⟩ := ih (d.loadFile folder path).1 hrest
      rw [loadFiles_cons_of_loads d hhere]
      exact ⟨hok, (hhere.mergesFile d).cons hmerges⟩

/-- A file that fails ends the loading, and nothing behind it is looked at. -/
theorem loadFiles_of_fails (d : Dictionary) (hbefore : ∀ p ∈ before, Loads folder p)
    (hfails : ¬ Loads folder path) (after : List Path) :
    d.loadFiles folder (before ++ path :: after) =
      (d.loadFiles folder before).1.loadFile folder path := by
  rw [loadFiles_append_of_loads d hbefore, Dictionary.loadFiles]
  split
  · rename_i hresult
    rw [hresult]
  · rename_i hresult
    rw [loads_iff (d.loadFiles folder before).1, hresult] at hfails
    exact absurd rfl hfails

/-! ## The order of the entries -/

theorem loadFile_congr (d : Dictionary) (hyaml : folder'.yaml = folder.yaml)
    (h : folder'.bytes? path = folder.bytes? path) :
    d.loadFile folder' path = d.loadFile folder path := by
  have hread : read folder' path = read folder path := by
    rw [read, read, h, hyaml]
  rw [Dictionary.loadFile, Dictionary.loadFile, hread]

theorem loadFiles_congr (d : Dictionary) (hyaml : folder'.yaml = folder.yaml)
    (h : ∀ path ∈ paths, folder'.bytes? path = folder.bytes? path) :
    d.loadFiles folder' paths = d.loadFiles folder paths := by
  induction paths generalizing d with
  | nil => rfl
  | cons path rest ih =>
      obtain ⟨hhere, hrest⟩ := List.forall_mem_cons.mp h
      rw [Dictionary.loadFiles, Dictionary.loadFiles, loadFile_congr d hyaml hhere]
      split
      · rfl
      · exact ih _ hrest

/-- The names of locale files in ascending order. -/
structure LocaleNames (folder : Folder) (directory : Path) (names : List String) : Prop where
  ascending : names.Pairwise (· < ·)
  mem_iff : ∀ n, n ∈ names ↔ n ∈ folder.namesIn directory ∧
    ∃ s, s ≠ "" ∧ (n = s ++ ".yaml" ∨ n = s ++ ".yml")

/-- A name is that of a locale file if it goes on with one of the two extensions. -/
theorem contains_suffix_iff (directory : Path) (n : String) :
    [".yaml", ".yml"].contains (directory.entry n).suffix = true ↔
      ∃ s, s ≠ "" ∧ (n = s ++ ".yaml" ∨ n = s ++ ".yml") := by
  have hyaml : (directory.entry n).suffix = ".yaml" ↔ ∃ s, s ≠ "" ∧ n = s ++ ".yaml" :=
    Path.suffix_entry_iff directory (e := "yaml".toList) (by decide) (by decide)
  have hyml : (directory.entry n).suffix = ".yml" ↔ ∃ s, s ≠ "" ∧ n = s ++ ".yml" :=
    Path.suffix_entry_iff directory (e := "yml".toList) (by decide) (by decide)
  simp only [List.contains_cons, List.contains_nil, Bool.or_eq_true, beq_iff_eq, hyaml, hyml,
    Bool.false_eq_true, or_false, and_or_left, exists_or]

/-- The files that are loaded are those with one of the two extensions, in the order of their names. -/
theorem exists_localeNames (folder : Folder) (directory : Path) :
    ∃ names, LocaleNames folder directory names ∧
      Dictionary.localeFiles folder directory = names.map directory.entry := by
  refine ⟨(sortedTexts (folder.namesIn directory)).filter
    fun n => [".yaml", ".yml"].contains (directory.entry n).suffix, ⟨?_, ?_⟩, List.filter_map⟩
  · exact (pairwise_lt_sortedTexts (folder.nodup_namesIn directory)).filter _
  · intro n
    rw [List.mem_filter, mem_sortedTexts, contains_suffix_iff]

theorem localeFiles_congr (h : Folder.SameEntries folder folder' directory) :
    Dictionary.localeFiles folder' directory = Dictionary.localeFiles folder directory := by
  rw [Dictionary.localeFiles, Dictionary.localeFiles, sortedTexts_eq_of_perm h.names]

/-- Loading a directory does not depend on the order in which it lists its entries. -/
theorem loadDirectory_congr (d : Dictionary) (h : Folder.SameEntries folder folder' directory) :
    d.loadDirectory folder' directory = d.loadDirectory folder directory := by
  have hfiles : d.loadFiles folder' (Dictionary.localeFiles folder directory) =
      d.loadFiles folder (Dictionary.localeFiles folder directory) := by
    apply loadFiles_congr d h.yaml
    intro path hpath
    obtain ⟨names, hnames, hlocale⟩ := exists_localeNames folder directory
    rw [hlocale] at hpath
    obtain ⟨n, hn, rfl⟩ := List.mem_map.mp hpath
    exact h.contents n ((hnames.mem_iff n).mp hn).1
  simp only [Dictionary.loadDirectory, h.there, localeFiles_congr h, hfiles]

/-! ## All of it -/

/-- A directory is loaded in the order of the names of its locale files. -/
structure LoadedByName (d : Dictionary) (folder : Folder) (directory : Path) (names : List String) :
    Prop where
  localeNames : LocaleNames folder directory names
  missing : folder.isDirectory directory = false →
    d.loadDirectory folder directory = (d, .error (flawed (.noDirectory directory.toText)))
  /-- If all locale files can be loaded, all are merged, and the result is the list of them. -/
  succeeds : folder.isDirectory directory = true →
    (∀ path ∈ names.map directory.entry, Loads folder path) →
    (d.loadDirectory folder directory).2 = .ok (names.map directory.entry) ∧
      MergesFiles d (d.loadDirectory folder directory).1 folder (names.map directory.entry)
  /-- Otherwise those before the first that fails are merged, and this one leaves the dictionary and the
  fault that the directory leaves. -/
  fails : folder.isDirectory directory = true →
    ∀ before path after, names.map directory.entry = before ++ path :: after →
    (∀ p ∈ before, Loads folder p) → ¬ Loads folder path →
    ∃ d' f, MergesFiles d d' folder before ∧
      d'.loadFile folder path = ((d.loadDirectory folder directory).1, .error f) ∧
      (d.loadDirectory folder directory).2 = .error f

/-- A directory is loaded by the names of its files, in whatever order it lists them. -/
theorem loaded_by_name (d : Dictionary) (h : Folder.SameEntries folder folder' directory) :
    d.loadDirectory folder' directory = d.loadDirectory folder directory ∧
      ∃ names, LoadedByName d folder directory names := by
  obtain ⟨names, hnames, hfiles⟩ := exists_localeNames folder directory
  refine ⟨loadDirectory_congr d h, names, ?_⟩
  constructor
  case localeNames => exact hnames
  case missing =>
    intro hmissing
    rw [Dictionary.loadDirectory, if_neg (by simp [hmissing])]
  case succeeds =>
    intro hthere hloads
    obtain ⟨hok, hmerges⟩ := loadFiles_of_loads d hloads
    simp only [Dictionary.loadDirectory, if_pos hthere, hfiles]
    exact ⟨by rw [hok]; rfl, hmerges⟩
  case fails =>
    intro hthere before path after hsplit hbefore hfails
    have hrun := loadFiles_of_fails d hbefore hfails after
    have hmerges := (loadFiles_of_loads d hbefore).2
    generalize (d.loadFiles folder before).1 = d' at hrun hmerges
    cases hresult : (d'.loadFile folder path).2 with
    | ok u => exact absurd ((loads_iff d').mpr hresult) hfails
    | error f =>
        simp only [Dictionary.loadDirectory, if_pos hthere, hfiles, hsplit, hrun]
        exact ⟨d', f, hmerges, Prod.ext rfl hresult, by rw [hresult]; rfl⟩

/-- A directory with two files that have the same French message, one of each shape, and another file. -/
def frenchFolder : Folder :=
  ⟨[(.ofText "m/fr.yml", .file "alpha: deux\n".toUTF8.toList),
    (.ofText "m/notes.txt", .file []),
    (.ofText "m/a.yaml", .file "fr:\n  alpha: un\n".toUTF8.toList)], Yaml.reader⟩

/-- The same directory, listed the other way round. -/
def frenchFolderReversed : Folder := { frenchFolder with items := frenchFolder.items.reverse }

/-- Listed either way round, the directory is loaded by the names of the two files, and the message of the
last one counts. -/
theorem loaded_by_name_french :
    Folder.SameEntries frenchFolder frenchFolderReversed (.ofText "m") ∧
      frenchFolderReversed.namesIn (.ofText "m") ≠ frenchFolder.namesIn (.ofText "m") ∧
      Dictionary.bundled.loadDirectory frenchFolderReversed (.ofText "m") =
        Dictionary.bundled.loadDirectory frenchFolder (.ofText "m") ∧
      (Dictionary.bundled.loadDirectory frenchFolder (.ofText "m")).2 =
        .ok [.ofText "m/a.yaml", .ofText "m/fr.yml"] ∧
      ((Dictionary.bundled.loadDirectory frenchFolder (.ofText "m")).1.get? (.text "fr")
        (.text "alpha")).bind (fun f => f.text? "title" []) = some "deux" := by
  have hperm : frenchFolderReversed.items.Perm frenchFolder.items := List.reverse_perm _
  have hnodup : (Table.keys frenchFolderReversed.items).Nodup := by decide +kernel
  have hyaml : frenchFolderReversed.yaml = frenchFolder.yaml := rfl
  have hsame := Folder.sameEntries_of_perm hyaml hperm hnodup (.ofText "m")
  have hlisted : frenchFolder.namesIn (.ofText "m") = ["fr.yml", "notes.txt", "a.yaml"] := by
    decide +kernel
  have hsorted : sortedTexts ["fr.yml", "notes.txt", "a.yaml"] = ["a.yaml", "fr.yml", "notes.txt"] := by
    have hperm : ["fr.yml", "notes.txt", "a.yaml"].Perm ["a.yaml", "fr.yml", "notes.txt"] := by decide
    rw [sortedTexts_eq_of_perm hperm]
    exact sortedTexts_of_pairwise (by decide)
  have hfiles : Dictionary.localeFiles frenchFolder (.ofText "m") =
      [.ofText "m/a.yaml", .ofText "m/fr.yml"] := by
    rw [Dictionary.localeFiles, hlisted, hsorted]
    decide +kernel
  have hload := loaded_by_name Dictionary.bundled hsame
  refine ⟨hsame, ?_, hload.1, ?_⟩
  · decide +kernel
  · simp only [Dictionary.loadDirectory, hfiles]
    decide +kernel

end LocaleFile

end FieldRules
