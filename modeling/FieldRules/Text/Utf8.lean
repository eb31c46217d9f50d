/-!
# UTF-8

The characters that bytes write, each in the one shortest form that UTF-8 has for it. What is no
such form, or would be a surrogate, is refused.
-/

namespace FieldRules.Text

/-- A byte that goes on a character, as its six bits. -/
def tailBits? (b : UInt8) : Option Nat :=
  if 0x80 ≤ b.toNat ∧ b.toNat ≤ 0xbf then some (b.toNat - 0x80) else none

/-- The character of a code point between two bounds. -/
def charBetween? (least most n : Nat) : Option Char :=
  if least ≤ n ∧ n ≤ most ∧ ¬ (0xd800 ≤ n ∧ n ≤ 0xdfff) then some (Char.ofNat n) else none

/-- Reads the characters of bytes. -/
def decodeUtf8? : List UInt8 → Option (List Char)
  | [] => some []
  | a :: rest =>
    let n := a.toNat
    if n < 0x80 then (decodeUtf8? rest).map (Char.ofNat n :: ·)
    else if n < 0xc0 then none
    else if n < 0xe0 then
      match rest with
      | b :: rest => do
        let v := (n - 0xc0) * 0x40 + (← tailBits? b)
        return (← charBetween? 0x80 0x7ff v) :: (← decodeUtf8? rest)
      | _ => none
    else if n < 0xf0 then
      match rest with
      | b :: c :: rest => do
        let v := ((n - 0xe0) * 0x40 + (← tailBits? b)) * 0x40 + (← tailBits? c)
        return (← charBetween? 0x800 0xffff v) :: (← decodeUtf8? rest)
      | _ => none
    else if n < 0xf8 then
      match rest with
      | b :: c :: d :: rest => do
        let v := (((n - 0xf0) * 0x40 + (← tailBits? b)) * 0x40 + (← tailBits? c)) * 0x40
          + (← tailBits? d)
        return (← charBetween? 0x10000 0x10ffff v) :: (← decodeUtf8? rest)
      | _ => none
    else none

/-- A text with every end of line written as a line feed. -/
def unifyLines : List Char → List Char
  | [] => []
  | '\r' :: '\n' :: rest => '\n' :: unifyLines rest
  | c :: rest => (if c = '\r' then '\n' else c) :: unifyLines rest

end FieldRules.Text
