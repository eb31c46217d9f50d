import FieldRules.Proofs.LocaleFile.Directory

/-!
# Faults that escape from a locale file

A locale file that cannot be loaded is refused as a flaw: there is no file, it cannot be looked at or is no
YAML, or its document has neither shape. But what reads YAML can also end otherwise, with bytes that are no
UTF-8 or a text that does not fit its tag, and what it ends with then escapes as it is. Nothing else does
(`contained_loadFile`).
-/

namespace FieldRules

namespace LocaleFile

/-- The reading of a file ends with a fault that is not told as a flaw of the file. -/
def FileEscapes (folder : Folder) (path : Path) (f : Fault) : Prop :=
  ∃ bytes g, folder.bytes? path = some bytes ∧ folder.yaml.read bytes = .error g ∧
    g.ofFile = false ∧ f = g.toFault

variable {bytes : Bytes} {f : Fault} {g : ReadFault} {folder : Folder} {path : Path}

/-! ## Bytes without a document -/

/-- A file is loaded or refused as a flaw, unless a fault escapes from it. -/
structure Contained (d : Dictionary) (folder : Folder) (path : Path) : Prop where
  /-- Where no file is, a flaw is told. -/
  missing : folder.bytes? path = none →
    d.loadFile folder path = (d, .error (flawed (.unreadable path.toText)))
  /-- The same flaw is told of a file that cannot be looked at or is no YAML. -/
  unreadable : ∀ bytes g, folder.bytes? path = some bytes → folder.yaml.read bytes = .error g →
    g.ofFile = true → d.loadFile folder path = (d, .error (flawed (.unreadable path.toText)))
  /-- Bytes that are no UTF-8 are not loaded: the flaw is told, or a fault escapes. -/
  undecodable : ∀ bytes, folder.bytes? path = some bytes → Text.decodeUtf8? bytes = none →
    d.loadFile folder path = (d, .error (flawed (.unreadable path.toText))) ∨
      ∃ f, FileEscapes folder path f
  /-- Nothing but success or a flaw comes of a file exactly if no fault escapes from it. -/
  contained_iff : ((d.loadFile folder path).2 = .ok () ∨
      ∃ flaw, (d.loadFile folder path).2 = .error (flawed flaw)) ↔ ∀ f, ¬ FileEscapes folder path f
  /-- A fault that escapes is what loading ends with. It is no flaw, and nothing is merged. -/
  escapes : ∀ f, FileEscapes folder path f → d.loadFile folder path = (d, .error f) ∧
    ∀ e, f ≠ .setup e

/-- Loading a file fails with a fault, whatever has been loaded before. -/
def Fails (folder : Folder) (path : Path) (f : Fault) : Prop :=
  ∀ d : Dictionary, (d.loadFile folder path).2 = .error f

end LocaleFile

end FieldRules
