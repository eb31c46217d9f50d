import FieldRules.Text.Printable

/-!
# Quoted texts

How a text or a run of bytes is written inside a larger value: between quotes, with the quote, the
backslash and everything unprintable escaped. Single quotes are used unless the text holds a single
quote and no double one.
-/

namespace FieldRules.Text

/-- The hexadecimal digits of a number, in lower case, at least `width` of them. -/
def hexDigits (width n : Nat) : List Char :=
  let ds := Nat.toDigits 16 n
  List.replicate (width - ds.length) '0' ++ ds

/-- The quote to put around a text: double quotes only around a text that holds a single quote and
no double one. -/
def quoteFor (s : List Char) : Char :=
  if s.contains '\'' && !s.contains '"' then '"' else '\''

/-- The escape of a character that is not written as it stands. -/
def escapePoint (n : Nat) : List Char :=
  if n < 0x100 then '\\' :: 'x' :: hexDigits 2 n
  else if n < 0x10000 then '\\' :: 'u' :: hexDigits 4 n
  else '\\' :: 'U' :: hexDigits 8 n

/-- One character between quotes. -/
def escapeChar (quote c : Char) : List Char :=
  if c = quote ∨ c = '\\' then ['\\', c]
  else if c = '\n' then ['\\', 'n']
  else if c = '\r' then ['\\', 'r']
  else if c = '\t' then ['\\', 't']
  else if isPrintable c then [c]
  else escapePoint c.toNat

/-- A text between quotes. -/
def quoted (s : String) : String :=
  let cs := s.toList
  let q := quoteFor cs
  String.ofList (q :: cs.flatMap (escapeChar q) ++ [q])

/-- Bytes between quotes, marked by a `b`; bytes outside printable ASCII are escaped. -/
def quotedBytes (bytes : List UInt8) : String :=
  let cs := bytes.map fun b => Char.ofNat b.toNat
  let q := quoteFor cs
  let body := cs.flatMap fun c => if c.val < 128 then escapeChar q c else escapePoint c.toNat
  String.ofList ('b' :: q :: body ++ [q])

end FieldRules.Text
