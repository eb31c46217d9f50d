import FieldRules.Proofs.Yaml.Keys

/-!
# A reader of YAML

The reader that the program is run with. It decodes all bytes of a file before it looks at the text.
-/

namespace FieldRules.Yaml

/-- The value of the document that the bytes of a file hold. -/
def readBytes (bytes : Bytes) : Except ReadFault Value :=
  match Text.decodeUtf8? bytes with
  | none => .error .notUtf8
  | some text => read (Text.unifyLines text)

/-- A reader of YAML. -/
def reader : YamlReader where
  read := readBytes
  keyed := by
    intro bytes v h
    unfold readBytes at h
    split at h
    · simp at h
    · exact keyed_of_read h
  decoded := by
    intro bytes v h
    unfold readBytes at h
    split at h
    · simp at h
    · rename_i hdecoded
      rw [hdecoded]
      rfl

end FieldRules.Yaml
