import FieldRules.Number.Binary64

/-!
# The shortest decimal of a float

A finite float is written with the fewest decimal digits that read back as the same float, and of
those with the ones nearest to it. `shortest` finds them by trying one digit, two digits and so on:
on the grid of decimals with that many digits only the two neighbours of the float can do.
`floatText` then lays the digits out: positional from `0.0001` up to sixteen digits before the
point, with a power of ten otherwise.
-/

namespace FieldRules.Number

/-- The decimal digits of a natural number. -/
def decimalDigits (n : Nat) : List Char := Nat.toDigits 10 n

/-- A positive decimal number `digits · 10 ^ exponent`. -/
structure Decimal where
  digits : Nat
  exponent : Int
deriving Repr, DecidableEq

/-- The numbers `a · 10 ^ k` and `b · 2 ^ q` on a common scale. -/
def commonScale (a : Nat) (k : Int) (b : Nat) (q : Int) : Nat × Nat :=
  let tens := Nat.pow 10 k.natAbs
  let twos := Nat.pow 2 q.natAbs
  let a := if k < 0 then a else a * tens
  let b := if k < 0 then b * tens else b
  (if q < 0 then a * twos else a, if q < 0 then b else b * twos)

/-- The power of ten of the leading digit of `m · 2 ^ q`, or one less at a power of ten below
one. -/
def leadingPower (m : Nat) (q : Int) : Int :=
  let (num, den) := if q < 0 then (m, Nat.pow 2 q.natAbs) else (m * Nat.pow 2 q.natAbs, 1)
  if den ≤ num then ((decimalDigits (num / den)).length : Int) - 1
  else -((decimalDigits (den / num)).length : Int)

/-- The decimal with `n` digits nearest to `m · 2 ^ q`, if one of them reads back as that float.
The numbers that read back are those up to half a gap away; the gap below a power of two is half
the gap above it, and the ends belong to an even mantissa. -/
def nearestWithDigits? (m : Nat) (q : Int) (n : Nat) : Option Decimal :=
  let k := leadingPower m q - n + 1
  -- everything in quarters of the gap
  let value := 4 * m
  let below := if m = Nat.pow 2 52 ∧ q > -1074 then value - 1 else value - 2
  let above := value + 2
  let inside (d : Nat) : Bool :=
    let (x, lo) := commonScale d k below (q - 2)
    let (_, hi) := commonScale d k above (q - 2)
    if m % 2 = 0 then lo ≤ x && x ≤ hi else lo < x && x < hi
  let (unit, v) := commonScale 1 k value (q - 2)
  let d := v / unit
  let r := v % unit
  match inside d, inside (d + 1) with
  | true, true =>
    some ⟨if 2 * r < unit ∨ (2 * r = unit ∧ d % 2 = 0) then d else d + 1, k⟩
  | true, false => some ⟨d, k⟩
  | false, true => some ⟨d + 1, k⟩
  | false, false => none

/-- The shortest decimal that reads back as `m · 2 ^ q`; seventeen digits always do. -/
def shortest (m : Nat) (q : Int) : Decimal :=
  ((List.range 17).findSome? fun i => nearestWithDigits? m q (i + 1)).getD ⟨m, 0⟩

/-- Digits with the point after the first `point` of them, zeros filling either side, and at least
one digit on both sides. -/
def positional (digits : List Char) (point : Int) : String :=
  if point ≤ 0 then String.ofList ("0.".toList ++ List.replicate point.natAbs '0' ++ digits)
  else
    let n := point.natAbs
    let whole := digits.take n ++ List.replicate (n - digits.length) '0'
    let rest := digits.drop n
    String.ofList (whole ++ '.' :: (if rest.isEmpty then ['0'] else rest))

/-- Digits with the point after the first one and a power of ten of at least two digits. -/
def scientific (digits : List Char) (power : Int) : String :=
  let mantissa := match digits with
    | [] => []
    | [d] => [d]
    | d :: ds => d :: '.' :: ds
  let p := decimalDigits power.natAbs
  let p := if p.length < 2 then '0' :: p else p
  String.ofList (mantissa ++ 'e' :: (if power < 0 then '-' else '+') :: p)

/-- The text of a float: the shortest digits that read back, positional from `0.0001` up to sixteen
digits before the point, always with a fraction or a power of ten. -/
def floatText (x : Float) : String :=
  match parts? x with
  | none => if x.isNaN then "nan" else if x < 0 then "-inf" else "inf"
  | some p =>
    let body :=
      if p.mantissa = 0 then "0.0"
      else
        let s := shortest p.mantissa p.exponent
        let all := decimalDigits s.digits
        let digits := (all.reverse.dropWhile (· == '0')).reverse
        let point := (all.length : Int) + s.exponent
        if -4 < point ∧ point ≤ 16 then positional digits point
        else scientific digits (point - 1)
    if p.negative then "-" ++ body else body

end FieldRules.Number
