/-!
# Surrogates

Escapes write a character beyond the basic plane as two code points, a high surrogate and a low
one. A surrogate without its partner is no character; the replacement character stands for it.
-/

namespace FieldRules.Text

/-- The first half of a character. -/
def isHighSurrogate (n : Nat) : Bool := 0xd800 ≤ n && n ≤ 0xdbff

/-- The second half of a character. -/
def isLowSurrogate (n : Nat) : Bool := 0xdc00 ≤ n && n ≤ 0xdfff

/-- The character of a code point. -/
def charOfPoint (n : Nat) : Char :=
  if isHighSurrogate n || isLowSurrogate n then '\ufffd' else Char.ofNat n

/-- The characters of code points, halves joined. -/
def charsOfPoints : List Nat → List Char
  | [] => []
  | [n] => [charOfPoint n]
  | m :: n :: rest =>
    if isHighSurrogate m && isLowSurrogate n then
      Char.ofNat (0x10000 + (m - 0xd800) * 0x400 + (n - 0xdc00)) :: charsOfPoints rest
    else charOfPoint m :: charsOfPoints (n :: rest)

end FieldRules.Text
