import FieldRules.Dictionary
import FieldRules.Folder

/-!
# Locale files

Messages are kept in YAML files of two shapes. A file either gives names and messages for each of
several locales, or names and messages for the one locale that the file is called after. A file
that holds nothing is as good as one without messages. The files of a directory are merged in the
order of their names, so of two messages for the same locale and name the one from the last file
counts.
-/

namespace FieldRules

namespace LocaleFile

/-- The value as a dictionary. -/
def entries? : Value → Option (List (Value × Value))
  | .dict es => some es
  | _ => none

/-- The names of messages with the messages; a name that is no key cannot occur. -/
def leaves (es : List (Value × Value)) : List (Key × Message) :=
  es.filterMap fun e => e.1.key?.map fun k => (k, .plain e.2)

/-- The names and messages of an entry for a locale. -/
def ofLocale (e : Value × Value) : Except String (List (Key × Message)) :=
  match entries? e.2 with
  | some names => .ok (leaves names)
  | none => .error e.1.asText

/-- The messages that the entries of a file give, in one of the two shapes. -/
def messages (stem : String) (es : List (Value × Value)) : Dictionary.Partial :=
  match es.mapM fun e => entries? e.2 with
  | some _ =>
    es.filterMap fun e => e.1.key?.map fun k => (k, ofLocale e)
  | none => [(.text stem, .ok (leaves es))]

/-- The entries of a document that holds a mapping, or nothing. -/
def documentEntries? (v : Value) : Option (List (Value × Value)) :=
  if v.truthy then entries? v else some []

/-- The fault of a flaw. -/
def flawed (flaw : DictionaryFlaw) : Fault := .setup (.dictionary flaw)

/-- The document that bytes hold. A file that cannot be looked at or holds no YAML is told; what else
ends the reading is not looked at here. -/
def document (yaml : YamlReader) (path : Path) (bytes : Bytes) : Except Fault Value :=
  (yaml.read bytes).mapError fun f =>
    if f.ofFile then flawed (.unreadable path.toText) else f.toFault

/-- The messages that a file gives. -/
def read (folder : Folder) (path : Path) : Except Fault Dictionary.Partial :=
  match folder.bytes? path with
  | none => .error (flawed (.unreadable path.toText))
  | some bytes => do
    match documentEntries? (← document folder.yaml path bytes) with
    | none => .error (flawed (.notMapping path.toText))
    | some es => return messages path.stem es

end LocaleFile

namespace Dictionary

/-- Merges a locale file in. -/
def loadFile (d : Dictionary) (folder : Folder) (path : Path) : Dictionary × Except Fault Unit :=
  match LocaleFile.read folder path with
  | .error f => (d, .error f)
  | .ok partials =>
    let (d, result) := d.update partials
    (d, result.mapError LocaleFile.flawed)

/-- Merges locale files in, up to the first that fails. -/
def loadFiles (d : Dictionary) (folder : Folder) : List Path → Dictionary × Except Fault Unit
  | [] => (d, .ok ())
  | path :: rest => match d.loadFile folder path with
    | (d, .error f) => (d, .error f)
    | (d, .ok ()) => loadFiles d folder rest

/-- The locale files of a directory in the order of their names. -/
def localeFiles (folder : Folder) (directory : Path) : List Path :=
  ((sortedTexts (folder.namesIn directory)).map directory.entry).filter fun p =>
    [".yaml", ".yml"].contains p.suffix

/-- Merges every locale file of a directory in and tells which ones. -/
def loadDirectory (d : Dictionary) (folder : Folder) (directory : Path) :
    Dictionary × Except Fault (List Path) :=
  if folder.isDirectory directory then
    let paths := localeFiles folder directory
    let (d, result) := d.loadFiles folder paths
    (d, result.map fun () => paths)
  else (d, .error (LocaleFile.flawed (.noDirectory directory.toText)))

end Dictionary

end FieldRules
