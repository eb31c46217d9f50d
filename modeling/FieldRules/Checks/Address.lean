import FieldRules.Checks.Form
import FieldRules.Pattern.Escape

/-!
# Mail and web addresses

The forms of addresses that are accepted, as patterns.
-/

namespace FieldRules.Checks

/-- What a mail address looks like: a mailbox, an `@` and a domain that ends in letters. -/
def mailPattern : String := "^[a-zA-Z0-9._%+-]+@[a-zA-Z0-9.-]+\\.[a-zA-Z]\x7b2,\x7d$"

/-- The text of a value is a mail address. -/
def email (value : Value) (_params : List Value) : Except Fault Bool :=
  fits (Pattern.read mailPattern.toList) value.fieldText.toList

/-- What a web address looks like: a scheme, the start of a host, any character of the line, and no
white space after it. -/
def webPattern : String := "^https?://[^\\s/$.?#].[^\\s]*$"

/-- The text of a value is a web address, whatever the case of its letters. -/
def url (value : Value) (_params : List Value) : Except Fault Bool :=
  fits (Pattern.readIgnoringCase webPattern.toList) value.fieldText.toList

end FieldRules.Checks
