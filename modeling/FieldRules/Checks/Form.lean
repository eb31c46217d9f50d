import FieldRules.Fault
import FieldRules.Pattern.Reader
import FieldRules.Pattern.Search
import FieldRules.Value

/-!
# Form

The rule that asks a text to have a form, given by a pattern. The commas of a pattern separate
parameters, so the parameters are joined again before the pattern is read.
-/

namespace FieldRules.Checks

open FieldRules.Pattern

/-- The fault of a text that is no pattern. -/
def patternFault : PatternError → Fault
  | .malformed => .badPattern
  | .tooManyTimes => .numberTooLarge

/-- A pattern that was read matches at the start of a text. -/
def fits (pattern : Except PatternError Compiled) (s : List Char) : Except Fault Bool := do
  let p ← pattern.mapError patternFault
  return p.matchesStart s

/-- The pattern that parameters stand for. -/
def patternText (params : List Value) : String := String.intercalate "," (params.map Value.asText)

/-- A pattern matches somewhere in the text of a value. -/
def form (value : Value) (params : List Value) : Except Fault Bool :=
  match Pattern.read (patternText params).toList with
  | .error e => .error (patternFault e)
  | .ok p => .ok (p.search value.fieldText.toList)

end FieldRules.Checks
