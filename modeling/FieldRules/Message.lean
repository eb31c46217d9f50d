import FieldRules.Template

/-!
# Messages

A message is made from the name of a field and the parameters of a rule. It is given as a function
or as a template; whatever else somebody hands over as a message is kept as a plain value, which
cannot be called.
-/

namespace FieldRules

/-- Makes a message, or fails. -/
abbrev MessageFn := String → List Value → Except Fault Value

/-- The message function of a template. -/
def templateMessage (template : String) : MessageFn :=
  fun field params => (renderTemplate template field params).map .text

/-- A message as it is handed over. -/
inductive Message where
  | fn (f : MessageFn)
  /-- A plain value: a text is a template, anything else is no message. -/
  | plain (v : Value)

namespace Message

/-- A message given as a template. -/
def template (t : String) : Message := .plain (.text t)

/-- Nothing was given. -/
def isAbsent : Message → Bool
  | .plain .null => true
  | _ => false

/-- The function of a message: its own, or that of its template. -/
def compile : Message → Except DictionaryFlaw MessageFn
  | .fn f => .ok f
  | .plain (.text t) => .ok (templateMessage t)
  | .plain v => .error (.badMessage v.kindName)

/-- Calls a message. A plain value cannot be called. -/
def call : Message → MessageFn
  | .fn f => f
  | .plain _ => fun _ _ => .error .wrongKind

end Message

/-- The text that a message function makes, unless it fails. -/
def MessageFn.text? (f : MessageFn) (field : String) (params : List Value) : Option String :=
  match f field params with
  | .ok v => some v.asText
  | .error _ => none

/-- The locale whose messages stand in for those that another locale lacks. -/
def englishLocale : String := "en"

/-- The message of a rule that has no other. -/
def defaultMessage (field : String) : String := "The " ++ field ++ " value is not valid."

end FieldRules
