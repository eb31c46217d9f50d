import FieldRules.Fault
import FieldRules.Text.Blank
import FieldRules.Text.Numeric
import FieldRules.Value

/-!
# Character classes and lists

Rules that ask every character of a text to be of some class, and rules that ask a text to be in a
list. The empty text has no character that could be wrong.
-/

namespace FieldRules.Checks

open FieldRules.Text

/-- Every character of a value's text is of a class. -/
def everyChar (p : Char → Bool) (value : Value) (_params : List Value) : Except Fault Bool :=
  .ok (value.fieldText.toList.all p)

/-- Letters and white space. -/
def alpha : Value → List Value → Except Fault Bool := everyChar fun c => isLetter c || isBlank c

/-- Letters and characters with a numeric value. -/
def alphaNum : Value → List Value → Except Fault Bool := everyChar isAlphanumeric

/-- Letters, characters with a numeric value, hyphens and low lines. -/
def alphaDash : Value → List Value → Except Fault Bool :=
  everyChar fun c => isAlphanumeric c || c == '-' || c == '_'

/-- The text of a value is the text of one of the parameters. -/
def isOneOf (value : Value) (params : List Value) : Bool :=
  (params.map Value.asText).contains value.fieldText

/-- The text of a value is in the list. -/
def inList (value : Value) (params : List Value) : Except Fault Bool :=
  .ok (isOneOf value params)

/-- The text of a value is not in the list. -/
def notInList (value : Value) (params : List Value) : Except Fault Bool :=
  .ok (!isOneOf value params)

end FieldRules.Checks
