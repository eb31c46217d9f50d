import FieldRules.Fault
import FieldRules.Number.Reading
import FieldRules.Value

/-!
# Numbers from values

Parameters of rules are texts most of the time, but a caller may pass any value. These are the ways
to take a value as a whole number or as a float.
-/

namespace FieldRules.Checks

open FieldRules.Number FieldRules.Text

/-- Bytes as characters, one each. -/
def byteChars (bs : Bytes) : List Char := bs.map fun b => Char.ofNat b.toNat

/-- A value as a whole number. A float loses its fraction. -/
def toInt : Value → Except Fault Int
  | .bool b => .ok (if b then 1 else 0)
  | .int n => .ok n
  | .float x =>
    if x.isNaN then .error .notANumber
    else match truncate? x with
      | some n => .ok n
      | none => .error .numberTooLarge
  | .text s => (readInt? s.toList).elim (.error .notANumber) .ok
  | .bytes bs => (readIntWith? isAsciiBlank (byteChars bs)).elim (.error .notANumber) .ok
  | _ => .error .wrongKind

/-- A value as a float. -/
def toFloat : Value → Except Fault Float
  | .bool b => .ok (if b then 1 else 0)
  | .int n => (ofInt? n).elim (.error .numberTooLarge) .ok
  | .float x => .ok x
  | .text s => (readFloat? s.toList).elim (.error .notANumber) .ok
  | .bytes bs => (readFloatWith? isAsciiBlank (byteChars bs)).elim (.error .notANumber) .ok
  | _ => .error .wrongKind

/-- The parameter at a place. -/
def param (params : List Value) (place : Nat) : Except Fault Value :=
  (params[place]?).elim (.error .missingParameter) .ok

end FieldRules.Checks
