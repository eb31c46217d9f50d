import FieldRules.Message
import FieldRules.Table
import FieldRules.Value.Key

/-!
# The dictionary of messages

The messages that validators share: for each locale, for each name of a validator, a message.
Messages are merged in leaf by leaf, in the order in which they come, and stay until the dictionary
is cleared. A merge that meets something that is no message stops there and keeps what it merged
before.

Locales and names are texts for everybody who asks; a locale file may bring in keys that are not.
-/

namespace FieldRules

/-- Messages by locale and by name. -/
structure Dictionary where
  locales : Table Key (Table Key MessageFn)

namespace Dictionary

/-- Messages to be merged in: locales, each with names and messages. In place of something that is no
mapping stands the text of the locale, which is not always that of its key: truth values have texts of
their own. -/
abbrev Partial := List (Key × Except String (List (Key × Message)))

/-- A dictionary without messages; it has the English locale. -/
def cleared : Dictionary := ⟨[(.text englishLocale, [])]⟩

/-- The message for a locale and a name. -/
def get? (d : Dictionary) (locale name : Key) : Option MessageFn :=
  (Table.get? d.locales locale).bind fun names => Table.get? names name

/-- The dictionary has a locale. -/
def hasLocale (d : Dictionary) (locale : Key) : Bool := Table.has d.locales locale

/-- Makes sure that a locale is there. -/
def openLocale (d : Dictionary) (locale : Key) : Dictionary :=
  if d.hasLocale locale then d else ⟨Table.put d.locales locale []⟩

/-- Sets the message for a locale and a name. -/
def putLeaf (d : Dictionary) (locale name : Key) (f : MessageFn) : Dictionary :=
  ⟨Table.put d.locales locale (Table.put ((Table.get? d.locales locale).getD []) name f)⟩

/-- Merges messages into a locale, up to the first that is none. -/
def mergeNames (d : Dictionary) (locale : Key) :
    List (Key × Message) → Dictionary × Except DictionaryFlaw Unit
  | [] => (d, .ok ())
  | (name, message) :: rest => match message.compile with
    | .error flaw => (d, .error flaw)
    | .ok f => mergeNames (d.putLeaf locale name f) locale rest

/-- Merges messages in, up to the first flaw. -/
def update (d : Dictionary) : Partial → Dictionary × Except DictionaryFlaw Unit
  | [] => (d, .ok ())
  | (_, .error text) :: _ => (d, .error (.localeNotMapping text))
  | (locale, .ok names) :: rest => match (d.openLocale locale).mergeNames locale names with
    | (d, .error flaw) => (d, .error flaw)
    | (d, .ok ()) => update d rest

/-- Sets one message. -/
def setMessage (d : Dictionary) (locale name : Key) (message : Message) :
    Dictionary × Except DictionaryFlaw Unit :=
  d.update [(locale, .ok [(name, message)])]

/-- The text of a key, if it is one. -/
def textKey? : Key → Option String
  | .text s => some s
  | _ => none

/-- The locales in ascending order. Keys that are no texts have no place in that order. -/
def sortedLocales (d : Dictionary) : Except Fault (List String) :=
  match (Table.keys d.locales).mapM textKey? with
  | some names => .ok (sortedTexts names)
  | none => .error .wrongKind

/-- The English messages of the validators that everybody has. -/
def englishMessages : List (String × String) := [
  ("alpha", "The \x7bfield\x7d may only contain alphabetic characters and spaces."),
  ("alpha_dash",
    "The \x7bfield\x7d may contain alpha-numeric characters as well as dashes and underscores."),
  ("alpha_num", "The \x7bfield\x7d may only contain alpha-numeric characters."),
  ("between", "The \x7bfield\x7d must be between \x7b0\x7d and \x7b1\x7d."),
  ("digits", "The \x7bfield\x7d must be numeric and exactly contain \x7b0\x7d digits."),
  ("dimensions", "The \x7bfield\x7d must be \x7b0\x7d pixels by \x7b1\x7d pixels."),
  ("email", "The \x7bfield\x7d must be a valid email."),
  ("ext", "The \x7bfield\x7d must be a valid file."),
  ("image", "The \x7bfield\x7d must be an image."),
  ("in", "The \x7bfield\x7d must be a valid value."),
  ("ip", "The \x7bfield\x7d must be a valid ip address."),
  ("max", "The \x7bfield\x7d may not be greater than \x7b0\x7d characters."),
  ("mimes", "The \x7bfield\x7d must be a valid file type."),
  ("min", "The \x7bfield\x7d must be at least \x7b0\x7d characters."),
  ("not_in", "The \x7bfield\x7d must be a valid value."),
  ("numeric", "The \x7bfield\x7d may only contain numeric characters."),
  ("regex", "The \x7bfield\x7d format is invalid."),
  ("required", "The \x7bfield\x7d is required."),
  ("size", "The \x7bfield\x7d must be less than \x7b0\x7d KB."),
  ("url", "The \x7bfield\x7d must be a valid url.")]

/-- The dictionary to start with: the English messages alone. -/
def bundled : Dictionary :=
  ⟨[(.text englishLocale, englishMessages.map fun e => (.text e.1, templateMessage e.2))]⟩

end Dictionary

end FieldRules
