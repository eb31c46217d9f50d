import FieldRules.Definition

/-!
# Offers

A caller may hand over anything as a definition. A definition in its kept form is taken as it is. What
has the form of an object is a definition spelled out in its members: every mapping has it, and any other
value that has a member for the predicate, even if that value can be called as well. What is left is a
bare predicate if it can be called, and no definition otherwise.
-/

namespace FieldRules

/-- What stands under a name in a mapping or in an object. -/
inductive Member (α : Type) where
  | missing
  /-- Something of the kind that is looked for. -/
  | fit (a : α)
  /-- A plain value, which may be the null value. -/
  | plain (v : Value)

namespace Member

variable {α : Type}

/-- There is something under the name. -/
def isThere : Member α → Bool
  | missing => false
  | _ => true

/-- What stands under the name, if it is of the kind that is looked for. -/
def fit? : Member α → Option α
  | fit a => some a
  | _ => none

end Member

/-- The members that a definition is spelled out with. -/
structure Members where
  /-- Something that can be called as a predicate. -/
  validate : Member Validator := .missing
  /-- Something that can be called as a message. -/
  getMessage : Member MessageFn := .missing
  /-- A mapping of locales to messages. -/
  messages : Member (List (Key × Message)) := .missing

namespace Members

/-- The message for every locale, whatever is given as one. -/
def message? (m : Members) : Option Message :=
  match m.getMessage with
  | .missing => none
  | .fit f => some (.fn f)
  | .plain v => some (.plain v)

/-- The messages of a plain dictionary. -/
def plainMessages (entries : List (Value × Value)) : List (Key × Message) :=
  entries.filterMap fun e => e.1.key?.map fun locale => (locale, .plain e.2)

/-- The messages by locale. A plain value is no mapping unless it is a dictionary. -/
def suppliedMessages (m : Members) : SuppliedMessages :=
  match m.messages with
  | .missing => .absent
  | .fit messages => .mapping messages
  | .plain .null => .absent
  | .plain (.dict entries) => .mapping (plainMessages entries)
  | .plain _ => .other

/-- The definition that is spelled out. -/
def supplied (m : Members) : Supplied := .parts m.validate.fit? m.message? m.suppliedMessages

/-- The member that a dictionary has under a name. -/
def entry {α : Type} (entries : List (Value × Value)) (name : String) : Member α :=
  match Value.lookupText entries name with
  | some v => .plain v
  | none => .missing

/-- The members of a plain dictionary. -/
def ofEntries (entries : List (Value × Value)) : Members where
  validate := entry entries "validate"
  getMessage := entry entries "get_message"
  messages := entry entries "messages"

end Members

/-- Anything that is handed over as a definition. -/
inductive Offer where
  /-- A definition in its kept form. -/
  | definition (d : Definition)
  | mapping (m : Members)
  /-- Any other value: the name of its kind, its members, and what it does when it is called, if it can
  be. -/
  | object (kind : String) (m : Members) (call : Option Validator)

namespace Offer

/-- A plain value, handed over as a definition. -/
def ofValue : Value → Offer
  | .dict entries => .mapping (Members.ofEntries entries)
  | v => .object v.kindName {} none

/-- What is handed over, as it is understood. -/
def supplied : Offer → Supplied
  | definition d => .definition d
  | mapping m => m.supplied
  | object kind m call =>
    if m.validate.isThere then m.supplied
    else match call with
      | some v => .predicate v
      | none => .other kind

end Offer

end FieldRules
