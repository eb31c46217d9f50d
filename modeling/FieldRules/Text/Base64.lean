import FieldRules.Text.Digit

/-!
# Bytes in base 64

Bytes written with 64 characters, four for every three bytes, padded with equality signs. Other
characters among them do not count.
-/

namespace FieldRules.Text

/-- The six bits that a character stands for. -/
def sixBits? (c : Char) : Option Nat :=
  if 'A' ≤ c ∧ c ≤ 'Z' then some (c.toNat - 'A'.toNat)
  else if 'a' ≤ c ∧ c ≤ 'z' then some (c.toNat - 'a'.toNat + 26)
  else if isAsciiDigit c then some (c.toNat - '0'.toNat + 52)
  else if c = '+' then some 62
  else if c = '/' then some 63
  else none

/-- Reads bytes: `held` are the characters of the current four so far, as their bits, and `pads`
the padding signs since the last of them. Padding that fills the four ends the text. -/
def readBase64 : (held : List Nat) → (pads : Nat) → List Char → Option (List UInt8)
  | held, _, [] => if held.isEmpty then some [] else none
  | held, pads, c :: rest =>
    if c = '=' then
      if 2 ≤ held.length ∧ 4 ≤ held.length + pads + 1 then some []
      else readBase64 held (if 2 ≤ held.length then pads + 1 else pads) rest
    else match sixBits? c with
      | none => readBase64 held pads rest
      | some n => match held with
        | [] => readBase64 [n] 0 rest
        | [a] => (readBase64 [a, n] 0 rest).map (UInt8.ofNat (a * 4 + n / 16) :: ·)
        | [a, b] => (readBase64 [a, b, n] 0 rest).map (UInt8.ofNat (b % 16 * 16 + n / 4) :: ·)
        | _ :: _ :: z :: _ => (readBase64 [] 0 rest).map (UInt8.ofNat (z % 4 * 64 + n) :: ·)

/-- The bytes that a text writes in base 64. -/
def decodeBase64? (s : List Char) : Option (List UInt8) := readBase64 [] 0 s

end FieldRules.Text
