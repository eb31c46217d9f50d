import FieldRules.LocaleFile
import FieldRules.Proofs.Dictionary

/-!
# What loading does to the dictionary

To load locale files is to merge what they hold: a file that can be read writes what a merge of its
messages writes, and one that cannot be read writes nothing (`loadFile_eq_writes`). The files of a
directory write one after the other, up to the first that fails (`loadDirectory_eq_writes`). So what
loading writes for a locale and a name stands in one of the files under this locale and this name.

The bundled dictionary, too, is a file merged into a cleared dictionary (`update_cleared`).
-/

namespace FieldRules

namespace Dictionary

/-! ## One file after the other -/

/-- What loading a file writes, and the fault if it fails. -/
def fileWrites (folder : Folder) (path : Path) : List Write × Except Fault Unit :=
  match LocaleFile.read folder path with
  | .error f => ([], .error f)
  | .ok p => ((writes p).1, (writes p).2.mapError LocaleFile.flawed)

/-- What loading files writes up to the first that fails, and its fault. -/
def filesWrites (folder : Folder) : List Path → List Write × Except Fault Unit
  | [] => ([], .ok ())
  | path :: rest =>
    let here := fileWrites folder path
    match here.2 with
    | .error f => (here.1, .error f)
    | .ok () => (here.1 ++ (filesWrites folder rest).1, (filesWrites folder rest).2)

/-- What loading a directory writes. -/
def directoryWrites (folder : Folder) (directory : Path) : List Write :=
  if folder.isDirectory directory then (filesWrites folder (localeFiles folder directory)).1 else []

theorem loadFile_eq_writes (d : Dictionary) (folder : Folder) (path : Path) :
    d.loadFile folder path =
      (d.writeAll (fileWrites folder path).1, (fileWrites folder path).2) := by
  unfold loadFile fileWrites
  cases LocaleFile.read folder path with
  | error f => rfl
  | ok p => simp only [update_eq_writes]

theorem loadFiles_eq_writes (d : Dictionary) (folder : Folder) (paths : List Path) :
    d.loadFiles folder paths =
      (d.writeAll (filesWrites folder paths).1, (filesWrites folder paths).2) := by
  induction paths generalizing d with
  | nil => rfl
  | cons path rest ih =>
      rw [loadFiles, loadFile_eq_writes, filesWrites]
      cases hresult : (fileWrites folder path).2 with
      | error f => rfl
      | ok u => simp only [ih, writeAll_append]

theorem loadDirectory_eq_writes (d : Dictionary) (folder : Folder) (directory : Path) :
    (d.loadDirectory folder directory).1 = d.writeAll (directoryWrites folder directory) := by
  unfold loadDirectory directoryWrites
  split
  · simp only [loadFiles_eq_writes]
  · rfl

/-! ## What the files hold -/

/-- A locale file that can be read has a message for a locale and a name. -/
def FileGives (folder : Folder) (path : Path) (locale name : Key) : Prop :=
  ∃ p, LocaleFile.read folder path = .ok p ∧ Gives p locale name

variable {folder : Folder}

theorem fileGives_of_leaf_mem {path : Path} {l n : Key} {f : MessageFn}
    (h : .leaf l n f ∈ (fileWrites folder path).1) : FileGives folder path l n := by
  unfold fileWrites at h
  cases hread : LocaleFile.read folder path with
  | error g => simp [hread] at h
  | ok p =>
      simp only [hread] at h
      exact ⟨p, hread, gives_of_leaf_mem h⟩

/-- What files write is written by one of them. -/
theorem exists_of_mem_filesWrites {paths : List Path} {w : Write}
    (h : w ∈ (filesWrites folder paths).1) : ∃ path ∈ paths, w ∈ (fileWrites folder path).1 := by
  induction paths with
  | nil => simp [filesWrites] at h
  | cons path rest ih =>
      rw [filesWrites] at h
      cases hresult : (fileWrites folder path).2 with
      | error f =>
          simp only [hresult] at h
          exact ⟨path, List.mem_cons_self, h⟩
      | ok u =>
          simp only [hresult, List.mem_append] at h
          rcases h with hhere | hlater
          · exact ⟨path, List.mem_cons_self, hhere⟩
          · obtain ⟨path', hmem, hw⟩ := ih hlater
            exact ⟨path', List.mem_cons_of_mem _ hmem, hw⟩

/-- What a directory writes is written by one of its locale files. -/
theorem exists_of_mem_directoryWrites {directory : Path} {w : Write}
    (h : w ∈ directoryWrites folder directory) :
    ∃ path ∈ localeFiles folder directory, w ∈ (fileWrites folder path).1 := by
  unfold directoryWrites at h
  split at h
  · exact exists_of_mem_filesWrites h
  · simp at h

/-- Files that are loaded without a fault are each loaded without a fault. -/
theorem of_filesWrites_ok {paths : List Path} (h : (filesWrites folder paths).2 = .ok ()) :
    ∀ path ∈ paths, (fileWrites folder path).2 = .ok () ∧
      ∀ w ∈ (fileWrites folder path).1, w ∈ (filesWrites folder paths).1 := by
  induction paths with
  | nil => simp
  | cons path rest ih =>
      rw [filesWrites] at h ⊢
      cases hhere : (fileWrites folder path).2 with
      | error f => simp [hhere] at h
      | ok u =>
          simp only [hhere] at h ⊢
          intro path' hpath'
          rcases List.mem_cons.mp hpath' with rfl | hlater
          · exact ⟨hhere, fun w hw => List.mem_append_left _ hw⟩
          · obtain ⟨hok, hmem⟩ := ih h path' hlater
            exact ⟨hok, fun w hw => List.mem_append_right _ (hmem w hw)⟩

/-! ## The bundled messages -/

/-- The document that holds the bundled messages: they stand under their locale. -/
def bundledDocument : List (Value × Value) :=
  [(.text englishLocale, .dict (englishMessages.map fun e => (.text e.1, .text e.2)))]

/-- The bundled dictionary is what a cleared one becomes when the bundled messages are merged in,
whatever the name of their file. -/
theorem update_cleared (stem : String) :
    cleared.update (LocaleFile.messages stem bundledDocument) = (bundled, .ok ()) := by
  rfl

end Dictionary

/-! ## The locales of a file -/

namespace LocaleFile

variable {folder : Folder} {path : Path} {l : Key}

/-- A locale file that can be read gives messages for a locale, or none but an empty mapping of them. -/
def HasLocale (folder : Folder) (path : Path) (l : Key) : Prop :=
  ∃ p, read folder path = .ok p ∧ l ∈ Table.keys p

/-- The document in a locale file has a key at its top. -/
def HasTopKey (folder : Folder) (path : Path) (l : Key) : Prop :=
  ∃ bytes v es, folder.bytes? path = some bytes ∧ document folder.yaml path bytes = .ok v ∧
    documentEntries? v = some es ∧ ∃ e ∈ es, e.1.key? = some l

theorem keys_messages (stem : String) (es : List (Value × Value)) :
    Table.keys (messages stem es) = es.filterMap (·.1.key?) ∨
      Table.keys (messages stem es) = [.text stem] := by
  unfold messages
  split
  · left
    rw [Table.keys, List.map_filterMap]
    congr 1
    funext e
    cases e.1.key? <;> rfl
  · exact Or.inr rfl

/-- A locale of a file is the name of the file or a key at its top. -/
theorem HasLocale.text_or_topKey (h : HasLocale folder path l) :
    l = .text path.stem ∨ HasTopKey folder path l := by
  obtain ⟨p, hread, hl⟩ := h
  unfold read at hread
  cases hbytes : folder.bytes? path with
  | none => simp [hbytes] at hread
  | some bytes =>
      simp only [hbytes] at hread
      cases hdocument : document folder.yaml path bytes with
      | error f => simp [hdocument, bind, Except.bind] at hread
      | ok v =>
          simp only [hdocument, bind, Except.bind] at hread
          cases hentries : documentEntries? v with
          | none => simp [hentries] at hread
          | some es =>
              simp only [hentries, pure, Except.pure, Except.ok.injEq] at hread
              subst hread
              rcases keys_messages path.stem es with hkeys | hkeys
              · rw [hkeys, List.mem_filterMap] at hl
                exact Or.inr ⟨bytes, v, es, hbytes, hdocument, hentries, hl⟩
              · rw [hkeys, List.mem_singleton] at hl
                exact Or.inl hl

theorem hasLocale_of_mem {w : Dictionary.Write} (h : w ∈ (Dictionary.fileWrites folder path).1) :
    HasLocale folder path w.locale := by
  unfold Dictionary.fileWrites at h
  cases hread : read folder path with
  | error f => simp [hread] at h
  | ok p =>
      simp only [hread] at h
      obtain ⟨names, hmem, -⟩ := Dictionary.of_mem_writes h
      exact ⟨p, hread, List.mem_map_of_mem hmem⟩

theorem opening_mem_of_hasLocale (hok : (Dictionary.fileWrites folder path).2 = .ok ())
    (h : HasLocale folder path l) : .opening l ∈ (Dictionary.fileWrites folder path).1 := by
  obtain ⟨p, hread, hl⟩ := h
  unfold Dictionary.fileWrites at hok ⊢
  simp only [hread] at hok ⊢
  apply Dictionary.opening_mem_writes _ hl
  cases hresult : (Dictionary.writes p).2 with
  | error flaw => simp [hresult, Except.mapError] at hok
  | ok u => rfl

end LocaleFile

end FieldRules
