import FieldRules.YamlReader

/-!
# The tokens of a YAML document

What the text of a document is made of. The start and the end of a block are no signs in the text;
they follow from indentation.
-/

namespace FieldRules.Yaml

/-- What a line that starts with a percent sign says. -/
inductive Directive where
  /-- The version of YAML, by its first number. -/
  | version (major : Nat)
  /-- A short form for the start of tags. -/
  | handle (handle start : String)
  | other
deriving Repr, DecidableEq

/-- A token. -/
inductive Token where
  | directive (d : Directive)
  | documentStart
  | documentEnd
  | blockSequence
  | blockMapping
  | blockEnd
  | flowSequence
  | flowSequenceEnd
  | flowMapping
  | flowMappingEnd
  | blockEntry
  | flowEntry
  | key
  | value
  | alias (name : String)
  | anchor (name : String)
  /-- A tag, perhaps with a short form for its start. -/
  | tag (handle : Option String) (suffix : String)
  | scalar (text : String) (plain : Bool)
  | streamEnd
  /-- The text cannot be read on from here. -/
  | broken (f : ReadFault)
deriving Repr, DecidableEq

end FieldRules.Yaml
