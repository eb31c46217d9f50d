import FieldRules.Number.Binary64
import FieldRules.Text.Blank
import FieldRules.Text.Digit

/-!
# Reading numbers

Whole numbers and decimal numbers as people type them: white space around them, a sign, single low
lines between digits, digits of any script. `readFloat?` also knows the words for infinity and
not-a-number.

An interpreter may be set to refuse whole numbers of very many digits, both when they are read and when
they are written. There is no such setting here: a number of any length is read, and it has a text.
-/

namespace FieldRules.Number

open FieldRules.Text

/-- Digits of any script as ASCII digits; other characters stay. -/
def asciiDigits (s : List Char) : List Char :=
  s.map fun c => match digitValue? c with
    | some d => Char.ofNat ('0'.toNat + d)
    | none => c

/-- Takes low lines out, each of which must stand between two ASCII digits. The flag tells whether
a digit stands before the text. -/
def joinDigits? (afterDigit : Bool) : List Char → Option (List Char)
  | [] => some []
  | c :: rest =>
    if c = '_' then
      if afterDigit && rest.head?.any isAsciiDigit then joinDigits? false rest else none
    else (joinDigits? (isAsciiDigit c) rest).map (c :: ·)

/-- A sign, if there is one, and the rest. -/
def takeSign : List Char → Bool × List Char
  | '-' :: rest => (true, rest)
  | '+' :: rest => (false, rest)
  | rest => (false, rest)

/-- The number that ASCII digits write. -/
def digitsValue (s : List Char) : Nat :=
  s.foldl (fun n c => 10 * n + (c.toNat - '0'.toNat)) 0

/-- Reads a whole number from ASCII digits and low lines, with `blank` around it. -/
def readIntWith? (blank : Char → Bool) (s : List Char) : Option Int :=
  let (negative, body) := takeSign (trimBy blank s)
  match joinDigits? false body with
  | none => none
  | some digits =>
    if digits.isEmpty || !digits.all isAsciiDigit then none
    else
      let n := digitsValue digits
      some (if negative then -(n : Int) else n)

/-- Reads a whole number. -/
def readInt? (s : List Char) : Option Int := readIntWith? isNumberBlank (asciiDigits s)

/-- The float nearest to `digits · 10 ^ exponent`. Powers far beyond the range of floats are decided
by the number of digits. -/
def ofDecimal (negative : Bool) (digits : Nat) (exponent : Int) : Float :=
  if digits = 0 then ofRatio negative 0 1
  else
    let size := (Nat.toDigits 10 digits).length + exponent
    if size > 400 then infinity negative
    else if size < -400 then ofRatio negative 0 1
    else if exponent < 0 then ofRatio negative digits (Nat.pow 10 exponent.natAbs)
    else ofRatio negative (digits * Nat.pow 10 exponent.natAbs) 1

/-- The power of ten at the end of a decimal number; none when something else stands there. -/
def readPower? : List Char → Option Int
  | [] => some 0
  | c :: rest =>
    if c = 'e' ∨ c = 'E' then
      let (negative, digits) := takeSign rest
      if digits.isEmpty || !digits.all isAsciiDigit then none
      else
        let n := digitsValue digits
        some (if negative then -(n : Int) else n)
    else none

/-- Reads an unsigned decimal number: digits, a point among or around them, a power of ten. -/
def readDecimal? (negative : Bool) (s : List Char) : Option Float :=
  let whole := s.takeWhile isAsciiDigit
  let rest := s.dropWhile isAsciiDigit
  let (fraction, rest) := match rest with
    | '.' :: r => (r.takeWhile isAsciiDigit, r.dropWhile isAsciiDigit)
    | r => ([], r)
  if whole.isEmpty && fraction.isEmpty then none
  else (readPower? rest).map fun power =>
    ofDecimal negative (digitsValue (whole ++ fraction)) (power - fraction.length)

/-- Reads a decimal number or a word for infinity or not-a-number, with `blank` around it. -/
def readFloatWith? (blank : Char → Bool) (s : List Char) : Option Float :=
  match joinDigits? false (trimBy blank s) with
  | none => none
  | some body =>
    let (negative, body) := takeSign body
    let word := String.ofList (body.map Char.toLower)
    if word = "inf" ∨ word = "infinity" then some (infinity negative)
    else if word = "nan" then some (0.0 / 0.0)
    else readDecimal? negative body

/-- Reads a decimal number. -/
def readFloat? (s : List Char) : Option Float := readFloatWith? isNumberBlank (asciiDigits s)

end FieldRules.Number
