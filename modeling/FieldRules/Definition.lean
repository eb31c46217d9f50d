import FieldRules.Dictionary
import FieldRules.Validator

/-!
# Definitions of validators

A validator is defined by a predicate and by where its messages come from. `Definition` is the one
form in which definitions are kept. `Supplied` is what a caller may hand over instead: a bare
predicate, a definition spelled out in parts, or something that is no definition at all.
-/

namespace FieldRules

/-- How a definition came about. -/
inductive DefinitionKind where
  | predicate
  | object
  | builtin
deriving Repr, DecidableEq

/-- The word for a kind of definition. -/
def DefinitionKind.word : DefinitionKind → String
  | predicate => "predicate"
  | object => "object"
  | builtin => "builtin"

/-- A validator with its messages. -/
structure Definition where
  name : String
  validate : Validator
  kind : DefinitionKind := .object
  /-- A message for every locale. -/
  getMessage : Option Message := none
  /-- Messages by locale. -/
  messages : Table Key Message := []
  /-- The validator belongs to everybody, and its messages are looked up in the dictionary. -/
  shared : Bool := false

/-- The `messages` part of a definition that is spelled out. -/
inductive SuppliedMessages where
  | absent
  | mapping (messages : List (Key × Message))
  /-- A value that is no mapping. -/
  | other

/-- What a caller hands over as a definition. -/
inductive Supplied where
  /-- A definition in its kept form. -/
  | definition (d : Definition)
  /-- The parts of a definition; a predicate that is missing or cannot be called is none. -/
  | parts (validate : Option Validator) (getMessage : Option Message)
      (messages : SuppliedMessages)
  /-- A bare predicate. -/
  | predicate (v : Validator)
  /-- Something else, of the kind that is named. -/
  | other (kind : String)

namespace Definition

/-- The function of each message, up to the first that is none. -/
def compileAll : List (Key × Message) → Except DictionaryFlaw (List (Key × Message))
  | [] => .ok []
  | (locale, message) :: rest => do
    let f ← message.compile
    let fs ← compileAll rest
    return (locale, .fn f) :: fs

/-- Checks the parts of a definition and puts them together. -/
def ofParts (name : String) (validate : Option Validator) (getMessage : Option Message)
    (messages : SuppliedMessages) : Except SetupError Definition :=
  let given := match getMessage with
    | some m => if m.isAbsent then none else some m
    | none => none
  match validate, given, messages with
  | none, _, _ => .error (.invalid name .noPredicate)
  | some _, some (.plain _), _ => .error (.invalid name .messageNotCallable)
  | some _, _, .other => .error (.invalid name .messagesNotMapping)
  | some _, none, .absent => .error (.invalid name .noMessage)
  | some _, none, .mapping [] => .error (.invalid name .noMessage)
  | some v, _, .absent => .ok { name, validate := v, getMessage := given }
  | some v, _, .mapping ms => match compileAll (Table.ofPairs ms) with
    | .error flaw => .error (.dictionary flaw)
    | .ok compiled => .ok { name, validate := v, getMessage := given, messages := compiled }

/-- The kept form of what was handed over, under a name. -/
def normalize (name : String) : Supplied → Except SetupError Definition
  | .definition d => .ok { d with name }
  | .parts validate getMessage messages => ofParts name validate getMessage messages
  | .predicate v => .ok { name, validate := v, kind := .predicate }
  | .other kind => .error (.invalid name (.notDefinition kind))

/-- The definition's own message for a locale. -/
def ownMessage? (d : Definition) (locale : Key) : Option Message :=
  (Table.get? d.messages locale).filter fun m => !m.isAbsent

/-- The one message that is considered for a locale: the definition's own, or else, if the
validator is shared, that of the dictionary. -/
def candidate? (d : Definition) (dictionary : Dictionary) (locale : Key) : Option MessageFn :=
  match d.ownMessage? locale with
  | some m => some m.call
  | none => if d.shared then dictionary.get? locale (.text d.name) else none

/-- The locales whose messages are considered: the one that is asked for, then English. -/
def consideredLocales (locale : Key) : List Key :=
  if locale = .text englishLocale then [locale] else [locale, .text englishLocale]

/-- The message for a failed rule: of the messages considered for each locale, and then of the
definition's message for every locale, the first that does not fail; the default message if all
do. -/
def resolveMessage (d : Definition) (dictionary : Dictionary) (field : String)
    (params : List Value) (locale : Key) : String :=
  let localized := (consideredLocales locale).filterMap (d.candidate? dictionary)
  let general := (d.getMessage.filter fun m => !m.isAbsent).toList.map Message.call
  ((localized ++ general).findSome? fun f => f.text? field params).getD (defaultMessage field)

end Definition

end FieldRules
