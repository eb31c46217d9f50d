import FieldRules.Checks.Convert
import FieldRules.Text.Blank

/-!
# Presence and length

`required` asks that there is something, `min` and `max` ask for its length. Texts are measured in
characters, collections in members. Whatever else there is, frozen sets included, is measured by
its text.
-/

namespace FieldRules.Checks

/-- There is something: a text that is not blank, a collection with a member, any other value. -/
def required (value : Value) (_params : List Value) : Except Fault Bool :=
  .ok <| match value with
    | .null => false
    | .text s => !(Text.trim s.toList).isEmpty
    | .list vs | .tuple vs | .set vs | .frozenset vs => !vs.isEmpty
    | .dict es => !es.isEmpty
    | _ => true

/-- The length of a value. -/
def length : Value → Nat
  | .null => 0
  | .text s => s.length
  | .list vs | .tuple vs | .set vs => vs.length
  | .dict es => es.length
  | v => v.asText.length

/-- A value has at least the length that is given. -/
def min (value : Value) (params : List Value) : Except Fault Bool := do
  let n ← toInt (← param params 0)
  return decide (n ≤ length value)

/-- A value has at most the length that is given. -/
def max (value : Value) (params : List Value) : Except Fault Bool := do
  let n ← toInt (← param params 0)
  return decide ((length value : Int) ≤ n)

end FieldRules.Checks
