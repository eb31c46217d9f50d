import FieldRules.Fault
import FieldRules.Text.Utf8
import FieldRules.Value.Key

/-!
# Readers of YAML

YAML is read by a library that is no part of the project. All that is taken for granted of it is in
`YamlReader`: it makes a value of the bytes of a file, or ends with one of the faults in `ReadFault`.
It decodes the bytes while it reads them, so which fault comes first is up to it. What is loaded from
files is loaded for every such reader.
-/

namespace FieldRules

/-- What the reading of a YAML file can end with. -/
inductive ReadFault where
  /-- The file could not be looked at. -/
  | storage
  /-- The text is no YAML. -/
  | malformed
  /-- The bytes are no UTF-8. -/
  | notUtf8
  /-- A text that stands for no number was to be read as one. -/
  | notANumber
  /-- A number was to be read from a text without a single digit. -/
  | emptyNumber
  /-- The calendar or the clock has no such date or time. -/
  | impossibleDate
  /-- A number does not fit where it was needed. -/
  | numberTooLarge
  /-- A part of the document is of a kind that its tag does not know. -/
  | wrongKind
  /-- A word stands for nothing in a closed list of words. -/
  | unknownWord
  /-- A text lacks the parts that were asked of it. -/
  | missingPart
  /-- Parts of the document lie in one another more deeply than can be followed. -/
  | tooDeep
  /-- The reader gave up on its own. -/
  | gaveUp
deriving Repr, DecidableEq

namespace ReadFault

/-- The fault as one of the program. -/
def toFault : ReadFault → Fault
  | storage => .storage
  | malformed => .malformedYaml
  | notUtf8 => .notUtf8
  | notANumber => .notANumber
  | emptyNumber => .emptyNumber
  | impossibleDate => .impossibleDate
  | numberTooLarge => .numberTooLarge
  | wrongKind => .wrongKind
  | unknownWord => .unknownWord
  | missingPart => .missingPart
  | tooDeep => .tooDeep
  | gaveUp => .gaveUp

/-- The file is at fault: it cannot be looked at, or it is no YAML. -/
def ofFile : ReadFault → Bool
  | storage | malformed => true
  | _ => false

end ReadFault

namespace Value

/-- The keys of entries, of which no two are the same. -/
def HasKeys (es : List (Value × Value)) (ks : List Key) : Prop :=
  es.map (·.1.key?) = ks.map some ∧ ks.Nodup

/-- A value that is a dictionary only with keys that can be told apart, and so are the values in it. -/
inductive Keyed : Value → Prop
  | dict {es : List (Value × Value)} {ks : List Key} (hkeys : HasKeys es ks)
      (hvalues : ∀ e ∈ es, e.2.Keyed) : Keyed (.dict es)
  | other {v : Value} (h : ∀ es, v ≠ .dict es) : Keyed v

end Value

/-- A library that reads YAML. -/
structure YamlReader where
  /-- The value of the one document that bytes hold, which is null if there is none. -/
  read : Bytes → Except ReadFault Value
  /-- The keys of a mapping are proper keys and can be told apart. (Keys that are nan are told apart
  by what objects they are, which values do not say; of such keys the last one is given.) -/
  keyed : ∀ bytes v, read bytes = .ok v → v.Keyed
  /-- A document is only given once all bytes are decoded. -/
  decoded : ∀ bytes v, read bytes = .ok v → (Text.decodeUtf8? bytes).isSome = true

end FieldRules
