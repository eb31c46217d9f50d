/-!
# Floating-point numbers as fractions

A finite `Float` is `± m · 2 ^ q` for natural `m` and integer `q`. This module takes a float apart
into such a pair, rounds a fraction of naturals to the nearest float, and compares floats with
integers without rounding either.
-/

namespace FieldRules.Number

/-- A finite float as `± mantissa · 2 ^ exponent`. -/
structure Parts where
  negative : Bool
  mantissa : Nat
  exponent : Int
deriving Repr, DecidableEq

/-- The parts of a finite float; none for the infinities and for not-a-number. -/
def parts? (x : Float) : Option Parts :=
  let bits := x.toBits.toNat
  let negative := bits / Nat.pow 2 63 = 1
  let field : Nat := bits / Nat.pow 2 52 % Nat.pow 2 11
  let fraction : Nat := bits % Nat.pow 2 52
  if field = 2047 then none
  else if field = 0 then some ⟨negative, fraction, -1074⟩
  else some ⟨negative, Nat.pow 2 52 + fraction, (field : Int) - 1075⟩

/-- The quotient rounded to the nearest natural, a half to the even one. -/
def roundDiv (num den : Nat) : Nat :=
  let q := num / den
  let r := num % den
  if 2 * r > den ∨ (2 * r = den ∧ q % 2 = 1) then q + 1 else q

/-- The fraction `num / den / 2 ^ e`, as numerator and denominator. -/
def scaleDown (num den : Nat) (e : Int) : Nat × Nat :=
  if e < 0 then (num * Nat.pow 2 e.natAbs, den) else (num, den * Nat.pow 2 e.natAbs)

/-- The float nearest to `num / den`, a half going to the even mantissa; a fraction beyond the
largest float gives infinity. The denominator is not zero. -/
def ofRatio (negative : Bool) (num den : Nat) : Float :=
  let bits : Nat :=
    if num = 0 then 0
    else
      let low : Int := max ((Nat.log2 num : Int) - Nat.log2 den - 53) (-1074)
      let (n, d) := scaleDown num den low
      let e := if n / d ≥ Nat.pow 2 53 then low + 1 else low
      let (n, d) := scaleDown num den e
      let m := roundDiv n d
      let b := if m < Nat.pow 2 52 then m else (e + 1075).toNat * Nat.pow 2 52 + (m - Nat.pow 2 52)
      min b (2047 * Nat.pow 2 52)
  Float.ofBits (UInt64.ofNat (if negative then Nat.pow 2 63 + bits else bits))

/-- The infinity with a sign. -/
def infinity (negative : Bool) : Float := ofRatio negative (Nat.pow 2 1024) 1

/-- The float nearest to an integer, if it is finite. -/
def ofInt? (n : Int) : Option Float :=
  let x := ofRatio (n < 0) n.natAbs 1
  if x.isFinite then some x else none

/-- The integer part of a finite float. -/
def truncate? (x : Float) : Option Int :=
  (parts? x).map fun p =>
    let n : Nat :=
      if p.exponent < 0 then p.mantissa / Nat.pow 2 p.exponent.natAbs
      else p.mantissa * Nat.pow 2 p.exponent.natAbs
    if p.negative then -(n : Int) else n

/-- Whether `n ≤ x`, without rounding. -/
def intLeFloat (n : Int) (x : Float) : Bool :=
  match parts? x with
  | none => x > 0
  | some p =>
    let m : Int := if p.negative then -(p.mantissa : Int) else p.mantissa
    let scale := Nat.pow 2 p.exponent.natAbs
    if p.exponent < 0 then n * scale ≤ m else n ≤ m * scale

/-- Whether `n = x`, without rounding. -/
def intEqFloat (n : Int) (x : Float) : Bool :=
  match parts? x with
  | none => false
  | some p =>
    let m : Int := if p.negative then -(p.mantissa : Int) else p.mantissa
    let scale := Nat.pow 2 p.exponent.natAbs
    if p.exponent < 0 then n * scale = m else n = m * scale

end FieldRules.Number
