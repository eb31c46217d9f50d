import FieldRules.Text.Quoted

/-!
# What can go wrong

Two kinds of trouble are told apart. A `SetupError` is a mistake of the programmer or of whoever
wrote a locale file; it has a text. A `Fault` is anything that a validator, a message or a reader
can run into, setup errors included; a fault of a validator counts as a failed rule and is not
shown to anyone.
-/

namespace FieldRules

/-- What is wrong with a definition handed over for registration. -/
inductive DefinitionFlaw where
  /-- There is no predicate that could be called. -/
  | noPredicate
  /-- The message function cannot be called. -/
  | messageNotCallable
  /-- The localized messages are no mapping. -/
  | messagesNotMapping
  /-- There is neither a message function nor a localized message. -/
  | noMessage
  /-- The value is neither a predicate nor a definition; the kind of the value is given. -/
  | notDefinition (kind : String)
deriving Repr, DecidableEq

/-- What is wrong with messages or with a locale file or directory. -/
inductive DictionaryFlaw where
  /-- A locale does not hold a mapping of names to messages. -/
  | localeNotMapping (locale : String)
  /-- A message is neither a template nor a function; its kind is given. -/
  | badMessage (kind : String)
  /-- The file cannot be read as data. -/
  | unreadable (path : String)
  /-- The file holds no mapping. -/
  | notMapping (path : String)
  /-- There is no such directory. -/
  | noDirectory (path : String)
deriving Repr, DecidableEq

/-- A mistake made when validators or messages are set up. -/
inductive SetupError where
  | duplicate (name : String)
  | invalid (name : String) (flaw : DefinitionFlaw)
  | dictionary (flaw : DictionaryFlaw)
deriving Repr, DecidableEq

/-- The reason that an invalid definition is refused with. -/
def DefinitionFlaw.reason : DefinitionFlaw → String
  | noPredicate => "a callable 'validate' is required"
  | messageNotCallable => "'get_message' must be callable"
  | messagesNotMapping => "'messages' must map locales to messages"
  | noMessage => "either 'get_message' or 'messages' must be provided"
  | notDefinition kind => "expected a callable or a definition object, got " ++ kind

/-- The text of a flaw of messages. -/
def DictionaryFlaw.message : DictionaryFlaw → String
  | localeNotMapping locale => "Locale '" ++ locale ++ "' must map validator names to messages"
  | badMessage kind => "Messages must be callables or template strings, got " ++ kind
  | unreadable path => "Cannot read locale file " ++ path
  | notMapping path => "Locale file " ++ path ++ " must contain a mapping"
  | noDirectory path => "Locale directory not found: " ++ path

/-- The text of a setup error. -/
def SetupError.message : SetupError → String
  | duplicate name =>
    "Validator '" ++ name ++ "' is already registered. "
      ++ "Global validator names cannot be overwritten; use an instance extend to shadow it."
  | invalid name flaw => "Invalid definition for validator '" ++ name ++ "': " ++ flaw.reason
  | dictionary flaw => flaw.message

/-- What a validator, a message or a reader can run into. -/
inductive Fault where
  | setup (e : SetupError)
  /-- A text or a float that stands for no number was to be read as one. -/
  | notANumber
  /-- A number was to be read from a text without a single digit. -/
  | emptyNumber
  /-- The calendar or the clock has no such date or time. -/
  | impossibleDate
  /-- A number does not fit where it was needed. -/
  | numberTooLarge
  /-- A value is of a kind that the operation does not know. -/
  | wrongKind
  /-- A rule was given fewer parameters than it needs. -/
  | missingParameter
  /-- A word stands for nothing in a closed list of words. -/
  | unknownWord
  /-- A value lacks the parts that were asked of it. -/
  | missingPart
  /-- A pattern is malformed. -/
  | badPattern
  /-- An upload has neither stored bytes nor bytes in memory. -/
  | noImageData (name : String)
  /-- Bytes are no image. -/
  | notAnImage
  /-- There is no file where one was named. -/
  | noSuchFile
  /-- A file or an image could not be looked at. -/
  | storage
  /-- Bytes are no UTF-8. -/
  | notUtf8
  /-- A text is no YAML. -/
  | malformedYaml
  /-- A text is no JSON. -/
  | malformedJson
  /-- A validator or a message gave up on its own. -/
  | gaveUp
  /-- Parts of a document lie in one another more deeply than can be followed. -/
  | tooDeep
  /-- What was waited for was called off. -/
  | cancelled
deriving Repr, DecidableEq

/-- The text of a fault that has one. -/
def Fault.message? : Fault → Option String
  | setup e => some e.message
  | noImageData name => some ("File '" ++ name ++ "' has neither a path nor content")
  | _ => none

end FieldRules
