import FieldRules.Pattern.Reader

/-!
# Texts in patterns

A pattern can be put together from texts that are to stand for themselves: what would be a sign in
the pattern is escaped. A star may be let through, as a sign for one or more characters.
-/

namespace FieldRules.Pattern

/-- The characters that are escaped: those that are signs somewhere in some pattern. -/
def signChars : List Char := "()[]\x7b\x7d?*+-|^$\\.&~# \t\n\r\x0b\x0c".toList

/-- A text as a pattern. -/
def escape (s : List Char) : List Char :=
  s.flatMap fun c => if c ∈ signChars then ['\\', c] else [c]

/-- Escaped stars become signs for one or more characters. -/
def openStars : List Char → List Char
  | '\\' :: '*' :: rest => '.' :: '+' :: openStars rest
  | c :: rest => c :: openStars rest
  | [] => []

/-- A group of alternatives. -/
def oneOf (alternatives : List (List Char)) : List Char :=
  '(' :: ['|'].intercalate alternatives ++ [')']

/-- Reads a pattern that does not look at the case of letters. -/
def readIgnoringCase (text : List Char) : Except PatternError Compiled :=
  (read text).map fun p => { p with flags := { p.flags with ignoreCase := true } }

end FieldRules.Pattern
