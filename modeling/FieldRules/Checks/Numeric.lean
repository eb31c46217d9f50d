import FieldRules.Checks.Convert
import FieldRules.Checks.Form

/-!
# Numbers

`between` compares numbers, `numeric` and `digits` look at the characters of a text.
-/

namespace FieldRules.Checks

/-- A value as a number to compare; none for a value that is no number. A number too large for a
float is a fault. -/
def number? (value : Value) : Except Fault (Option Float) :=
  match toFloat value with
  | .ok x => .ok (some x)
  | .error .numberTooLarge => .error .numberTooLarge
  | .error _ => .ok none

/-- A value is a number between two others, both included. The upper one is only looked at when the
lower one is not above the value. -/
def between (value : Value) (params : List Value) : Except Fault Bool := do
  match ← number? value with
  | none => return false
  | some x =>
    let low ← toFloat (← param params 0)
    if low ≤ x then
      let high ← toFloat (← param params 1)
      return decide (x ≤ high)
    else return false

/-- What a text of digits looks like. -/
def numericPattern : String := "^[0-9]*$"

/-- The text of a value is made of digits. -/
def numeric (value : Value) (_params : List Value) : Except Fault Bool :=
  fits (Pattern.read numericPattern.toList) value.fieldText.toList

/-- The text of a value is made of digits and has the length that is given. The length is only
looked at for a text of digits. -/
def digits (value : Value) (params : List Value) : Except Fault Bool := do
  let s := value.fieldText.toList
  if ← fits (Pattern.read numericPattern.toList) s then
    let n ← toInt (← param params 0)
    return decide ((s.length : Int) = n)
  else return false

end FieldRules.Checks
